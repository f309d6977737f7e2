import Mathlib.Tactic.Ring
import MutationTesting.Coverage.Decoder
/-!
# What readers take

The fields of a coverage file lie behind one another without separators, so each reader has to find
the end of its field by itself. It does so without a look at what comes after the field: what it
has read from some bytes it reads from the same bytes at any other place, too. And where the input
ends within the field, it says so instead of making a value of the bytes that are left.

Both facts are stated of the bytes of a field, not of cursors, so that they can be put together as
the fields are.

## Main definitions

* `Reader.Reads` — bytes that a reader takes for a value
* `Reader.IsLocal` — a reader that has taken such bytes whenever it succeeds

## Main results

* `Reader.Reads.bind`, `Reader.IsLocal.bind` — a reader that goes on with another one
* `isLocal_text`, `isLocal_number`, `isLocal_truthValues` — the fields
* `isLocal_block` — the blocks
-/

namespace MutationTesting.Coverage

variable {α β : Type}

/-! ### Bytes that are read -/

/-- A reader takes the bytes for a value: all of them and no more, wherever they stand and whatever
comes after them. Where the input ends within them, it reports a truncation. -/
structure Reader.Reads (read : Reader α) (bytes : Bytes) (a : α) : Prop where
  whole : ∀ offset rest, read ⟨offset, bytes ++ rest⟩ = .ok (a, ⟨offset + bytes.length, rest⟩)
  cut : ∀ offset n, n < bytes.length →
    ∃ k ≤ offset + n, read ⟨offset, bytes.take n⟩ = .error (.truncated k)

/-- A reader that succeeds has taken bytes in this way. -/
def Reader.IsLocal (read : Reader α) : Prop :=
  ∀ c a d, read c = .ok (a, d) → ∃ bytes, c.rest = bytes ++ d.rest ∧ read.Reads bytes a

/-- The two steps of a reader that has succeeded. -/
theorem exists_of_bind_eq_ok {ε : Type} {x : Except ε α} {f : α → Except ε β} {b : β}
    (h : (x >>= f) = .ok b) : ∃ a, x = .ok a ∧ f a = .ok b := by
  cases x with
  | error e => cases h
  | ok a => exact ⟨a, rfl, h⟩

theorem reads_pure (a : α) : Reader.Reads (fun c => .ok (a, c)) [] a :=
  ⟨fun _ _ => rfl, fun _ _ h => absurd h (Nat.not_lt_zero _)⟩

theorem isLocal_pure (a : α) : Reader.IsLocal fun c => .ok (a, c) := by
  intro c a' d h
  obtain ⟨rfl, rfl⟩ := Prod.mk.inj (Except.ok.inj h)
  exact ⟨[], rfl, reads_pure _⟩

theorem isLocal_error (e : Cursor → CoverageError) :
    Reader.IsLocal fun c => (.error (e c) : Except CoverageError (α × Cursor)) :=
  fun _ _ _ h => nomatch h

namespace Reader

variable {f : Reader α} {x y : Bytes} {a : α} {b : β}

/-- A reader goes on where another one has stopped. It may remember where that one began. -/
theorem Reads.bind {g : Cursor → α × Cursor → Except CoverageError (β × Cursor)}
    (hf : f.Reads x a) (hg : ∀ start, Reader.Reads (fun c => g start (a, c)) y b) :
    Reader.Reads (fun c => f c >>= g c) (x ++ y) b where
  whole offset rest := by
    rw [List.append_assoc, hf.whole, List.length_append, ← Nat.add_assoc]
    exact (hg _).whole _ rest
  cut offset n hn := by
    by_cases hx : n < x.length
    · obtain ⟨k, hk, hcut⟩ := hf.cut offset n hx
      refine ⟨k, hk, ?_⟩
      rw [List.take_append_of_le_length (Nat.le_of_lt hx), hcut]
      rfl
    · have hle : x.length ≤ n := Nat.le_of_not_lt hx
      have hy : n - x.length < y.length := by
        rw [List.length_append] at hn
        omega
      obtain ⟨k, hk, hcut⟩ := (hg ⟨offset, (x ++ y).take n⟩).cut (offset + x.length) _ hy
      refine ⟨k, by omega, ?_⟩
      rw [List.take_append, List.take_of_length_le hle] at hcut ⊢
      rw [hf.whole]
      exact hcut

/-- A value is made of another one. -/
theorem Reads.map (g : α → β) (hf : f.Reads x a) :
    Reader.Reads (fun c => f c >>= fun p => .ok (g p.1, p.2)) x (g a) := by
  have h := hf.bind (g := fun _ p => .ok (g p.1, p.2)) fun _ => reads_pure (g a)
  rwa [List.append_nil] at h

theorem IsLocal.bind {g : α × Cursor → Except CoverageError (β × Cursor)} (hf : f.IsLocal)
    (hg : ∀ a, Reader.IsLocal fun c => g (a, c)) : Reader.IsLocal fun c => f c >>= g := by
  intro c b e h
  obtain ⟨⟨a, d⟩, hd, he⟩ := exists_of_bind_eq_ok h
  obtain ⟨x, hx, hreads⟩ := hf c a d hd
  obtain ⟨y, hy, hreads'⟩ := hg a d b e he
  exact ⟨x ++ y, by rw [hx, hy, List.append_assoc], hreads.bind fun _ => hreads'⟩

theorem IsLocal.map (g : α → β) (hf : f.IsLocal) :
    Reader.IsLocal fun c => f c >>= fun p => .ok (g p.1, p.2) :=
  hf.bind fun a => isLocal_pure (g a)

/-- A reader that succeeds moves its cursor behind what it has taken. -/
theorem IsLocal.offset_le (hf : f.IsLocal) {c d : Cursor} (h : f c = .ok (a, d)) :
    c.offset ≤ d.offset := by
  obtain ⟨x, hx, hreads⟩ := hf c a d h
  have hwhole : f c = .ok (a, ⟨c.offset + x.length, d.rest⟩) := by
    rw [← hreads.whole c.offset d.rest, ← hx]
  have hd : d = ⟨c.offset + x.length, d.rest⟩ :=
    (Prod.mk.inj (Except.ok.inj (h.symm.trans hwhole))).2
  rw [hd]
  exact Nat.le_add_right _ _

end Reader

/-! ### Numbers as bytes -/

theorem foldl_bigEndian (x : Bytes) (n : Nat) :
    x.foldl (fun n b => n * 256 + b.toNat) n = n * 256 ^ x.length + bigEndian x := by
  induction x generalizing n with
  | nil => simp [bigEndian]
  | cons b x ih =>
    have hcons : bigEndian (b :: x) = b.toNat * 256 ^ x.length + bigEndian x := by
      rw [bigEndian, List.foldl_cons, ih, Nat.zero_mul, Nat.zero_add]
    rw [List.foldl_cons, ih, hcons, List.length_cons, Nat.pow_succ]
    ring

theorem bigEndian_cons (b : UInt8) (x : Bytes) :
    bigEndian (b :: x) = b.toNat * 256 ^ x.length + bigEndian x := by
  rw [bigEndian, List.foldl_cons, foldl_bigEndian, Nat.zero_mul, Nat.zero_add]

theorem bigEndian_lt (x : Bytes) : bigEndian x < 256 ^ x.length := by
  induction x with
  | nil => decide
  | cons b x ih =>
    calc bigEndian (b :: x) = b.toNat * 256 ^ x.length + bigEndian x := bigEndian_cons b x
      _ < (b.toNat + 1) * 256 ^ x.length := by rw [Nat.add_one_mul]; omega
      _ ≤ 256 * 256 ^ x.length := Nat.mul_le_mul_right _ b.toNat_lt
      _ = 256 ^ (b :: x).length := by rw [List.length_cons, Nat.pow_succ, Nat.mul_comm]

/-- Bytes of one length are told apart by their numbers. -/
theorem bigEndian_inj {x y : Bytes} (hlength : x.length = y.length)
    (h : bigEndian x = bigEndian y) : x = y := by
  induction x generalizing y with
  | nil => exact (List.eq_nil_of_length_eq_zero hlength.symm).symm
  | cons a x ih =>
    obtain ⟨b, y, rfl⟩ := List.exists_cons_of_length_eq_add_one hlength.symm
    have hlen : x.length = y.length := Nat.succ.inj hlength
    have hx : bigEndian x < 256 ^ y.length := hlen ▸ bigEndian_lt x
    have hy := bigEndian_lt y
    rw [bigEndian_cons, bigEndian_cons, hlen] at h
    have hdiv := congrArg (· / 256 ^ y.length) h
    have hmod := congrArg (· % 256 ^ y.length) h
    simp only [Nat.mul_add_mod', Nat.mod_eq_of_lt hx, Nat.mod_eq_of_lt hy] at hmod
    rw [hmod] at h
    have hpos : 0 < 256 ^ y.length := Nat.pow_pos (by decide)
    have hab : a.toNat = b.toNat := Nat.eq_of_mul_eq_mul_right hpos (Nat.add_right_cancel h)
    rw [UInt8.toNat_inj.mp hab, ih hlen hmod]

@[simp] theorem length_bigEndianBytes (n value : Nat) : (bigEndianBytes n value).length = n := by
  simp [bigEndianBytes]

theorem bigEndianBytes_succ (n value : Nat) :
    bigEndianBytes (n + 1) value = UInt8.ofNat (value / 256 ^ n) :: bigEndianBytes n value := by
  simp [bigEndianBytes, List.range_succ]

/-- The lowest bytes of a number hold what is left of it. -/
theorem bigEndian_bigEndianBytes (n value : Nat) :
    bigEndian (bigEndianBytes n value) = value % 256 ^ n := by
  induction n with
  | zero => simp [bigEndianBytes, bigEndian, Nat.mod_one]
  | succ n ih =>
    rw [bigEndianBytes_succ, bigEndian_cons, length_bigEndianBytes, ih, UInt8.toNat_ofNat']
    have hstep : value % 256 ^ (n + 1) = value % 256 ^ n + 256 ^ n * (value / 256 ^ n % 256) := by
      rw [Nat.pow_succ, Nat.mod_mul]
    rw [hstep, Nat.mul_comm, Nat.add_comm]

theorem eq_bigEndianBytes (x : Bytes) : x = bigEndianBytes x.length (bigEndian x) := by
  refine bigEndian_inj (length_bigEndianBytes _ _).symm ?_
  rw [bigEndian_bigEndianBytes, Nat.mod_eq_of_lt (bigEndian_lt x)]

/-! ### Bytes and words -/

theorem reads_take {x : Bytes} {n : Nat} (h : x.length = n) : (take n).Reads x x where
  whole offset rest := by
    subst h
    simp [take]
  cut offset m hm := by
    refine ⟨offset, Nat.le_add_right _ _, if_neg ?_⟩
    rw [List.length_take]
    omega

/-- The bytes that were taken. -/
theorem take_eq_ok {n : Nat} {c d : Cursor} {x : Bytes} (h : take n c = .ok (x, d)) :
    x.length = n ∧ c.rest = x ++ d.rest := by
  rw [take] at h
  split at h
  · next hn =>
    obtain ⟨rfl, rfl⟩ := Prod.mk.inj (Except.ok.inj h)
    exact ⟨List.length_take_of_le hn, (List.take_append_drop n c.rest).symm⟩
  · cases h

theorem isLocal_take (n : Nat) : (take n).IsLocal := by
  intro c x d h
  obtain ⟨hlength, hrest⟩ := take_eq_ok h
  exact ⟨x, hrest, reads_take hlength⟩

theorem reads_byte (b : UInt8) : byte.Reads [b] b :=
  Reader.Reads.map (fun x : Bytes => x.headD 0) (reads_take (x := [b]) rfl)

theorem isLocal_byte : byte.IsLocal := (isLocal_take 1).map fun x : Bytes => x.headD 0

theorem reads_word16 {x : Bytes} (h : x.length = 2) : word16.Reads x (bigEndian x) :=
  (reads_take h).map bigEndian

theorem isLocal_word16 : word16.IsLocal := (isLocal_take 2).map bigEndian

theorem reads_word64 {x : Bytes} (h : x.length = 8) :
    word64.Reads x (Int64.ofInt (bigEndian x)) :=
  (reads_take h).map fun x => Int64.ofInt (bigEndian x)

theorem isLocal_word64 : word64.IsLocal :=
  (isLocal_take 8).map fun x => Int64.ofInt (bigEndian x)

/-! ### Strings, numbers and truth values -/

/-- What is made of the bytes of a string that begins at an offset. -/
def decoded (offset : Nat) (raw : Bytes) : Reader String := fun c =>
  (ModifiedUtf8.decode? raw).elim (.error (.badString offset)) fun s => .ok (s, c)

theorem text_eq (start : Cursor) : text start = word16 start >>= fun p => take p.1 p.2 >>= fun q =>
    decoded start.offset q.1 q.2 := by
  rw [text]
  refine congrArg (word16 start >>= ·) (funext fun p => congrArg (take p.1 p.2 >>= ·) ?_)
  funext q
  simp only [decoded]
  split <;> next hdecode => rw [hdecode, Option.elim]

/-- A string is read from its length and from bytes that denote it. -/
theorem reads_text {x raw : Bytes} {s : String} (hx : word16.Reads x raw.length)
    (hraw : ModifiedUtf8.decode? raw = some s) : text.Reads (x ++ raw) s := by
  have hdecoded : ∀ offset, (decoded offset raw).Reads [] s := by
    intro offset
    rw [funext fun c => show decoded offset raw c = .ok (s, c) by rw [decoded, hraw, Option.elim]]
    exact reads_pure s
  rw [funext text_eq]
  refine hx.bind fun start => ?_
  have h := (reads_take (x := raw) rfl).bind
    (g := fun _ p => decoded start.offset p.1 p.2) fun _ => hdecoded start.offset
  rwa [List.append_nil] at h

theorem isLocal_text : text.IsLocal := by
  intro c s e h
  obtain ⟨⟨n, d⟩, hn, hbytes⟩ := exists_of_bind_eq_ok h
  obtain ⟨⟨raw, d'⟩, hraw, hs⟩ := exists_of_bind_eq_ok hbytes
  obtain ⟨x, hx, hreads⟩ := isLocal_word16 c n d hn
  obtain ⟨rfl, hrest⟩ := take_eq_ok hraw
  dsimp only at hs
  split at hs
  · next s' hdecode =>
    obtain ⟨rfl, rfl⟩ := Prod.mk.inj (Except.ok.inj hs)
    exact ⟨x ++ raw, by rw [hx, hrest, List.append_assoc], reads_text hreads hdecode⟩
  · cases hs

theorem isLocal_groups (shift value left : Nat) : (groups shift value left).IsLocal := by
  induction left generalizing shift value with
  | zero =>
    intro c a d h
    obtain ⟨_, -, herror⟩ := exists_of_bind_eq_ok h
    cases herror
  | succ left ih =>
    refine isLocal_byte.bind fun b => ?_
    by_cases hlast : b.toNat < 128
    · simp only [if_pos hlast]
      exact isLocal_pure _
    · simp only [if_neg hlast]
      exact ih _ _

theorem isLocal_number : number.IsLocal := isLocal_groups 0 0 5

/-- Truth values are read from their number and from the bytes that hold them. -/
theorem reads_truthValues {x packed : Bytes} {n : Nat} (hx : number.Reads x n)
    (hpacked : packed.length = (n + 7) / 8) : truthValues.Reads (x ++ packed) (bits n packed) :=
  hx.bind fun _ => (reads_take hpacked).map (bits n)

theorem isLocal_truthValues : truthValues.IsLocal :=
  isLocal_number.bind fun n => (isLocal_take _).map (bits n)

/-! ### Blocks -/

/-- A header is what it is for its magic bytes and its version. -/
theorem isLocal_header : header.IsLocal := by
  refine (isLocal_take 2).bind fun found => ?_
  by_cases hfound : found ≠ magic.drop 1
  · simp only [if_pos hfound]
    exact isLocal_error _
  · simp only [if_neg hfound]
    refine isLocal_word16.bind fun v => ?_
    by_cases hv : v ≠ version
    · simp only [if_pos hv]
      exact isLocal_error _
    · simp only [if_neg hv]
      exact isLocal_pure ()

/-- The fields of a session block. -/
def sessionFields : Reader Block := fun c => do
  let (id, c) ← text c
  let (begun, c) ← word64 c
  let (dump, c) ← word64 c
  .ok (.session ⟨id, begun, dump⟩, c)

/-- The fields of a record block. -/
def recordFields : Reader Block := fun c => do
  let (id, c) ← word64 c
  let (name, c) ← text c
  let (probes, c) ← truthValues c
  .ok (.record ⟨id, name, probes⟩, c)

/-- The fields of a header block. -/
def headerFields : Reader Block := fun c => header c >>= fun p => .ok (.header, p.2)

/-- What comes after the kind of a block, if the kind is known. -/
def fieldsOf? (kind : UInt8) : Option (Reader Block) :=
  if kind = 0x01 then some headerFields
  else if kind = 0x10 then some sessionFields
  else if kind = 0x11 then some recordFields
  else none

theorem reads_sessionFields {x y z : Bytes} {s : SessionInfo} (hx : text.Reads x s.id)
    (hy : word64.Reads y s.start) (hz : word64.Reads z s.dump) :
    sessionFields.Reads (x ++ (y ++ z)) (.session s) :=
  hx.bind fun _ => hy.bind fun _ => hz.map fun dump => Block.session ⟨s.id, s.start, dump⟩

theorem isLocal_sessionFields : sessionFields.IsLocal :=
  isLocal_text.bind fun id => isLocal_word64.bind fun begun =>
    isLocal_word64.map fun dump => Block.session ⟨id, begun, dump⟩

theorem reads_recordFields {x y z : Bytes} {r : ExecutionRecord} (hx : word64.Reads x r.id)
    (hy : text.Reads y r.name) (hz : truthValues.Reads z r.probes) :
    recordFields.Reads (x ++ (y ++ z)) (.record r) :=
  hx.bind fun _ => hy.bind fun _ => hz.map fun probes => Block.record ⟨r.id, r.name, probes⟩

theorem isLocal_recordFields : recordFields.IsLocal :=
  isLocal_word64.bind fun id => isLocal_text.bind fun name =>
    isLocal_truthValues.map fun probes => Block.record ⟨id, name, probes⟩

theorem isLocal_fieldsOf? {kind : UInt8} {fields : Reader Block}
    (h : fieldsOf? kind = some fields) : fields.IsLocal := by
  simp only [fieldsOf?] at h
  split at h
  · obtain rfl := Option.some.inj h
    exact isLocal_header.map fun _ => Block.header
  · split at h
    · obtain rfl := Option.some.inj h
      exact isLocal_sessionFields
    · split at h
      · obtain rfl := Option.some.inj h
        exact isLocal_recordFields
      · cases h

/-- A block is its kind and the fields of this kind. -/
theorem block_eq (start : Cursor) : block start = byte start >>= fun p =>
    match fieldsOf? p.1 with
    | some fields => fields p.2
    | none => .error (.unknownBlock p.1 start.offset) := by
  rw [block]
  refine congrArg (byte start >>= ·) (funext fun p => ?_)
  obtain ⟨kind, c⟩ := p
  simp only [fieldsOf?]
  split
  · rfl
  · split
    · rfl
    · split <;> rfl

/-- A block is read from its kind and from its fields. -/
theorem reads_block {kind : UInt8} {fields : Reader Block} {x y : Bytes} {b : Block}
    (hkind : fieldsOf? kind = some fields) (hx : byte.Reads x kind) (hy : fields.Reads y b) :
    block.Reads (x ++ y) b := by
  have h := hx.bind
    (g := fun start p => match fieldsOf? p.1 with
      | some fields => fields p.2
      | none => .error (.unknownBlock p.1 start.offset))
    fun _ => by simpa only [hkind] using hy
  rwa [← funext block_eq] at h

/-- **Blocks are read from their own bytes.** -/
theorem isLocal_block : block.IsLocal := by
  intro c b e h
  rw [block_eq] at h
  obtain ⟨⟨kind, d⟩, hd, he⟩ := exists_of_bind_eq_ok h
  obtain ⟨x, hx, hbyte⟩ := isLocal_byte c kind d hd
  dsimp only at he
  split at he
  · next fields hkind =>
    obtain ⟨y, hy, hfields⟩ := isLocal_fieldsOf? hkind d b e he
    exact ⟨x ++ y, by rw [hx, hy, List.append_assoc], reads_block hkind hbyte hfields⟩
  · cases he

end MutationTesting.Coverage
