import MutationTesting.Proofs.Run.Backup
/-!
# Names of classes and paths of artifacts

The artifact of a class is reached from a directory by the parts of its name, the last of them with
a suffix. The path is put together part by part, and its last part gets an extension in the place of
one that it may have. If no part is empty or has a dot, all this comes to the directory, a slash if
it needs one, the name as it is and the suffix; so the name can be read off the path again, however
the directory is written.

## Main definitions

* `IsPlainName` — the parts of a name are not empty and have no dots
* `artifactWay` — the names that lead to an artifact

## Main results

* `Path.stripPrefix?_join` — a directory is stripped off what is below it
* `artifactPath_eq_join`
* `internalName?_artifactPath` — the name that is read off an artifact path
-/

namespace MutationTesting

/-! ### Cutting and joining -/

section

variable {separator : Char}

/-- Text in front without a separator belongs to the first piece. -/
theorem splitAt_append_of_notMem {first rest piece : List Char} {pieces : List (List Char)}
    (hfirst : separator ∉ first) (hrest : splitAt separator rest = piece :: pieces) :
    splitAt separator (first ++ rest) = (first ++ piece) :: pieces := by
  induction first with
  | nil => exact hrest
  | cons c first ih =>
    obtain ⟨hc, hfirst⟩ := List.ne_and_not_mem_of_not_mem_cons hfirst
    rw [List.cons_append, splitAt, if_neg hc.symm, ih hfirst]
    rfl

/-- Characters may be spelled before the text is cut or after it, as long as the separator stands
for itself alone. -/
theorem splitAt_flatMap {spell : Char → List Char} (hself : spell separator = [separator])
    (hother : ∀ c, c ≠ separator → separator ∉ spell c) (text : List Char) :
    splitAt separator (text.flatMap spell) =
      (splitAt separator text).map (·.flatMap spell) := by
  induction text with
  | nil => rfl
  | cons c text ih =>
    rw [List.flatMap_cons, splitAt]
    split
    · next hc =>
      rw [hc, hself, List.singleton_append, splitAt, if_pos rfl, ih]
      rfl
    · next hc =>
      cases hrest : splitAt separator text with
      | nil => exact absurd hrest (splitAt_ne_nil text)
      | cons piece pieces =>
        rw [hrest] at ih
        rw [splitAt_append_of_notMem (hother c hc) ih]
        rfl

end

namespace Path

/-- Joining undoes cutting. -/
theorem joined_splitAt (text : List Char) : joined (splitAt '/' text) = text := by
  induction text with
  | nil => rfl
  | cons c text ih =>
    rw [splitAt]
    cases hrest : splitAt '/' text with
    | nil => exact absurd hrest (splitAt_ne_nil text)
    | cons piece pieces =>
      rw [hrest] at ih
      split
      · next hc => rw [joined_cons_cons, ih, hc, List.nil_append]
      · cases pieces with
        | nil => rw [joined_singleton] at ih ⊢; rw [ih]
        | cons next pieces =>
          rw [joined_cons_cons] at ih ⊢
          rw [List.cons_append, ih]

theorem joined_concat_append (init : List Piece) (n rest : Piece) :
    joined (init ++ [n ++ rest]) = joined (init ++ [n]) ++ rest := by
  induction init with
  | nil => simp
  | cons p init ih =>
    cases init with
    | nil => simp [joined_cons_cons]
    | cons q init =>
      simp only [List.cons_append, joined_cons_cons] at ih ⊢
      rw [ih, List.append_assoc, List.cons_append]

theorem ofPieces_of_ne {ps : List Piece} (h : ps ≠ [[]]) : ofPieces ps = joined ps := by
  rw [ofPieces]
  exact h

/-- The pieces of a path put together again. -/
theorem ofPieces_pieces {path : Path} (h : path ≠ []) : ofPieces (pieces path) = path := by
  have hne : splitAt '/' path ≠ [[]] := by
    intro hroot
    have hjoined := joined_splitAt path
    rw [hroot, joined_singleton] at hjoined
    exact h hjoined.symm
  rw [pieces_of_ne_nil h, ofPieces_of_ne hne, joined_splitAt]

/-! ### Names below a directory -/

/-- What is written before the names below a directory. -/
def leading (dir : Path) : Path :=
  if dir = [] ∨ dir.getLast? = some '/' then dir else dir ++ ['/']

variable {dir : Path} {n : Piece} {way : List Piece}

/-- Names do not begin with a slash. -/
theorem isAbsolute_joined (hway : way ≠ []) (h : ∀ m ∈ way, isName m = true) :
    isAbsolute (joined way) = false := by
  obtain ⟨n, rest, rfl⟩ := List.exists_cons_of_ne_nil hway
  have hn : isName n = true := h n List.mem_cons_self
  rw [isAbsolute, head?_joined (isName_iff.mp hn).1]
  exact decide_eq_false fun hhead => slash_notMem_of_isName hn (List.mem_of_mem_head? hhead)

theorem join_eq_leading_append (dir : Path) {path : Path} (h : isAbsolute path = false) :
    join dir path = leading dir ++ path := by
  rw [join, leading, h, Bool.false_or]
  by_cases hdir : dir = []
  · simp [hdir]
  · by_cases hlast : dir.getLast? = some '/' <;> simp [hdir, hlast]

/-- A name gets a slash behind it. -/
theorem leading_join (h : isName n = true) : leading (join dir n) = leading dir ++ n ++ ['/'] := by
  have hway : ∀ m ∈ [n], isName m = true := List.forall_mem_singleton.mpr h
  have habsolute := isAbsolute_joined (List.cons_ne_nil n []) hway
  rw [joined_singleton] at habsolute
  have hempty : n ≠ [] := (isName_iff.mp h).1
  rw [join_eq_leading_append dir habsolute, leading, if_neg]
  rintro (hnil | hlast)
  · exact hempty (List.append_eq_nil_iff.mp hnil).2
  · rw [List.getLast?_append_of_ne_nil _ hempty] at hlast
    exact slash_notMem_of_isName h (List.mem_of_getLast? hlast)

/-- **Part by part** a path is put together like the parts at once. -/
theorem foldl_join (dir : Path) (hway : way ≠ []) (h : ∀ m ∈ way, isName m = true) :
    way.foldl join dir = join dir (joined way) := by
  induction way generalizing dir with
  | nil => exact absurd rfl hway
  | cons n way ih =>
    cases way with
    | nil => rw [joined_singleton, List.foldl_cons, List.foldl_nil]
    | cons m way =>
      obtain ⟨hn, hrest⟩ := List.forall_mem_cons.mp h
      have hne := List.cons_ne_nil m way
      rw [List.foldl_cons, ih _ hne hrest,
        join_eq_leading_append _ (isAbsolute_joined hne hrest), leading_join hn,
        join_eq_leading_append _ (isAbsolute_joined hway h), joined_cons_cons]
      simp

/-- **The pieces of a path below a directory**: some that do not depend on the names, and the
names. Those of the directory itself may end with the one behind its last slash. -/
theorem exists_pieces_join (dir : Path) : ∃ ps,
    (pieces dir = ps ∨ ps ≠ [] ∧ pieces dir = ps ++ [[]]) ∧
      ∀ way, way ≠ [] → (∀ m ∈ way, isName m = true) →
        pieces (join dir (joined way)) = ps ++ way := by
  have hnames (way : List Piece) (hway : way ≠ []) (h : ∀ m ∈ way, isName m = true) :
      splitAt '/' (joined way) = way :=
    splitAt_joined hway fun m hm => slash_notMem_of_isName (h m hm)
  -- a slash between two texts separates their pieces
  have hslash (first : Path) (way : List Piece) (hway : way ≠ [])
      (h : ∀ m ∈ way, isName m = true) :
      pieces (first ++ ['/'] ++ joined way) = splitAt '/' first ++ way := by
    rw [pieces_of_ne_nil (by simp), List.append_assoc, List.singleton_append, splitAt_append_cons,
      hnames way hway h]
  by_cases hdir : dir = []
  · subst hdir
    refine ⟨[], .inl rfl, fun way hway h => ?_⟩
    obtain ⟨n, rest, rfl⟩ := List.exists_cons_of_ne_nil hway
    have hne : joined (n :: rest) ≠ [] := joined_ne_nil (isName_iff.mp (h n List.mem_cons_self)).1
    rw [join_eq_leading_append [] (isAbsolute_joined hway h), leading, if_pos (.inl rfl),
      List.nil_append, pieces_of_ne_nil hne, hnames _ hway h, List.nil_append]
  · by_cases hlast : dir.getLast? = some '/'
    · obtain ⟨first, rfl⟩ := List.getLast?_eq_some_iff.mp hlast
      refine ⟨splitAt '/' first, .inr ⟨splitAt_ne_nil first, ?_⟩, fun way hway h => ?_⟩
      · rw [pieces_of_ne_nil hdir, splitAt_append_cons]
        rfl
      · rw [join_eq_leading_append _ (isAbsolute_joined hway h), leading, if_pos (.inr hlast),
          hslash first way hway h]
    · refine ⟨splitAt '/' dir, .inl (pieces_of_ne_nil hdir), fun way hway h => ?_⟩
      rw [join_eq_leading_append _ (isAbsolute_joined hway h), leading,
        if_neg (by simp [hdir, hlast]), hslash dir way hway h]

/-! ### Extensions -/

/-- Where the last piece is a name nothing is trimmed. -/
theorem trimmed_of_concat {path : Path} {init : List Piece} (hpieces : pieces path = init ++ [n])
    (h : isName n = true) : trimmed path = init ++ [n] := by
  rw [trimmed, hpieces]
  cases init with
  | nil => rfl
  | cons first init =>
    have hvoid : ¬ isVoid n = true := by simp [isVoid_of_isName h]
    change first :: (init ++ [n]).rdropWhile isVoid = first :: (init ++ [n])
    rw [List.rdropWhile_concat_neg _ _ _ hvoid]

theorem stem_of_notMem (h : '.' ∉ n) : stem n = n := by
  have hcontains : n.contains '.' = false := by simpa using h
  rw [stem, hcontains, if_neg Bool.false_ne_true]

/-- **A name without a dot** is extended where it ends. -/
theorem withExtension_join {init : List Piece} {extension : Piece}
    (h : ∀ m ∈ init ++ [n], isName m = true) (hdot : '.' ∉ n)
    (hextended : isName (n ++ '.' :: extension) = true) :
    withExtension (join dir (joined (init ++ [n]))) extension =
      join dir (joined (init ++ [n ++ '.' :: extension])) := by
  have hne (last : Piece) : init ++ [last] ≠ [] := by simp
  have hn : isName n = true := h n (by simp)
  have hinit : ∀ m ∈ init, isName m = true := fun m hm => h m (by simp [hm])
  have hextendedWay : ∀ m ∈ init ++ [n ++ '.' :: extension], isName m = true := by
    simpa [or_imp, forall_and] using ⟨hinit, hextended⟩
  obtain ⟨ps, -, hpieces⟩ := exists_pieces_join dir
  have hname : fileName? (join dir (joined (init ++ [n]))) = some n := by
    rw [← lastName?_steps, steps_join dir (hne n) h, List.map_append, ← List.append_assoc]
    exact lastName?_concat _ n
  have hplain := hpieces _ (hne n) h
  have hlonger := hpieces _ (hne (n ++ '.' :: extension)) hextendedWay
  rw [← List.append_assoc] at hplain hlonger
  rw [withExtension, hname]
  dsimp only
  rw [trimmed_of_concat hplain hn, List.dropLast_concat, stem_of_notMem hdot, ← hlonger]
  refine ofPieces_pieces fun hempty => ?_
  rw [hempty] at hlonger
  simp [pieces] at hlonger

/-- Octets without slashes and dots are a name. -/
theorem isName_of_notMem (hempty : n ≠ []) (hdot : '.' ∉ n) (hslash : '/' ∉ n)
    (hbyte : ∀ c ∈ n, c.toNat < 256) : isName n = true := by
  refine isName_iff.mpr ⟨hempty, ?_, ?_, fun c hc heq => hslash (heq ▸ hc), hbyte⟩
  · rintro rfl
    exact hdot List.mem_cons_self
  · rintro rfl
    exact hdot List.mem_cons_self

/-- A name is still one with something behind it. -/
theorem isName_append {rest : Piece} (h : isName n = true) (hdot : '.' ∉ n) (hslash : '/' ∉ rest)
    (hbyte : ∀ c ∈ rest, c.toNat < 256) : isName (n ++ rest) = true := by
  obtain ⟨hempty, -, -, hslashes, hbytes⟩ := isName_iff.mp h
  obtain ⟨c, n, rfl⟩ := List.exists_cons_of_ne_nil hempty
  have hhead : c ≠ '.' := fun heq => hdot (heq ▸ List.mem_cons_self)
  refine isName_iff.mpr ⟨nofun, fun heq => hhead (List.cons.inj heq).1,
    fun heq => hhead (List.cons.inj heq).1, ?_, ?_⟩
  · exact List.forall_mem_append.mpr ⟨hslashes, fun c hc heq => hslash (heq ▸ hc)⟩
  · exact List.forall_mem_append.mpr ⟨hbytes, hbyte⟩

/-! ### A directory stripped off -/

/-- Nothing but names is left of names. -/
theorem stripSteps?_nil (h : ∀ m ∈ way, isName m = true) : stripSteps? [] way = some way := by
  have hvoid : ∀ m ∈ way, ¬ isVoid m = true := fun m hm => by simp [isVoid_of_isName (h m hm)]
  have hkept : way.dropWhile isVoid = way := by
    cases way with
    | nil => rfl
    | cons n way => exact List.dropWhile_cons_of_neg (hvoid n List.mem_cons_self)
  have hend : dropEndWhile isVoid way = way := by
    obtain rfl | ⟨init, n, rfl⟩ := way.eq_nil_or_concat'
    · rfl
    · exact List.rdropWhile_concat_neg _ _ _ (hvoid n (by simp))
  rw [stripSteps?, hkept, hend]

/-- The steps of pieces are stripped off the pieces. -/
theorem stripSteps?_laterSteps_append (ps qs : List Piece) :
    stripSteps? (laterSteps ps) (ps ++ qs) = stripSteps? [] qs := by
  induction ps with
  | nil => rfl
  | cons p ps ih =>
    by_cases hp : isVoid p = true
    · have hlater : laterSteps (p :: ps) = laterSteps ps := by simp [laterSteps, hp]
      rw [hlater, ← ih, List.cons_append]
      cases laterSteps ps with
      | nil => rw [stripSteps?, stripSteps?, List.dropWhile_cons_of_pos hp]
      | cons step steps => rw [stripSteps?, if_pos hp]
    · have hlater : laterSteps (p :: ps) = stepOf p :: laterSteps ps := by simp [laterSteps, hp]
      rw [hlater, ← ih, List.cons_append]
      conv_lhs => rw [stripSteps?, if_neg hp, if_pos rfl]

/-- **A directory is stripped off** what is below it. -/
theorem stripPrefix?_join (dir : Path) (hway : way ≠ []) (h : ∀ m ∈ way, isName m = true) :
    stripPrefix? dir (join dir (joined way)) = some (joined way) := by
  obtain ⟨ps, hdir, hpieces⟩ := exists_pieces_join dir
  have hjoin := hpieces way hway h
  cases ps with
  | nil =>
    obtain hnil | ⟨hne, -⟩ := hdir
    · have hempty : dir = [] := by
        by_contra hne
        rw [pieces_of_ne_nil hne] at hnil
        exact splitAt_ne_nil dir hnil
      subst hempty
      obtain ⟨init, n, rfl⟩ : ∃ init n, way = init ++ [n] :=
        way.eq_nil_or_concat'.resolve_left hway
      have hplain : join [] (joined (init ++ [n])) = joined (init ++ [n]) :=
        join_eq_leading_append [] (isAbsolute_joined hway h)
      have hne : joined (init ++ [n]) ≠ [] := by
        intro hempty
        rw [hplain, hempty] at hjoin
        exact absurd hjoin.symm hway
      have htrimmed := trimmed_of_concat hjoin (h n (by simp))
      have hback := ofPieces_pieces hne
      rw [hplain] at hjoin htrimmed ⊢
      rw [hjoin, List.nil_append] at hback
      change some (ofPieces (trimmed _)) = _
      rw [htrimmed, hback]
    · exact absurd rfl hne
  | cons first rest =>
    have hcomponents : components dir = firstStep first :: laterSteps rest := by
      rw [components_eq]
      obtain hplain | ⟨-, hslash⟩ := hdir
      · rw [hplain, componentsOf]
      · rw [hslash, componentsOf_append (List.cons_ne_nil first rest)]
        simp [componentsOf, laterSteps, isVoid]
    rw [stripPrefix?, hcomponents, hjoin, List.cons_append]
    dsimp only
    rw [if_pos rfl, stripSteps?_laterSteps_append, stripSteps?_nil h, Option.map_some]

end Path

/-! ### Texts as octets -/

namespace Octets

/-- The octets of a character in UTF-8. -/
def ofChar (c : Char) : Octets := (String.utf8EncodeChar c).map ofByte

theorem ofString_eq_flatMap (text : String) : ofString text = text.toList.flatMap ofChar := by
  have hbytes : Utf8.encode text = text.toList.flatMap String.utf8EncodeChar := by
    conv_lhs => rw [← String.ofList_toList (s := text)]
    rw [Utf8.encode, String.toByteArray_ofList, List.utf8Encode]
    simp
  rw [ofString, hbytes, ofBytes, List.map_flatMap]
  rfl

theorem toNat_ofByte (b : UInt8) : (ofByte b).toNat = b.toNat := by
  have hb : b.toNat < 256 := b.toNat_lt
  rw [ofByte, toNat_charOfNat (.inl (by omega))]

/-- Each octet stands for a byte. -/
theorem toNat_lt_of_mem_ofString {text : String} {c : Char} (h : c ∈ ofString text) :
    c.toNat < 256 := by
  obtain ⟨b, -, rfl⟩ := List.mem_map.mp h
  rw [toNat_ofByte]
  exact b.toNat_lt

/-- A character with a small number is its own octet. -/
theorem ofChar_of_small {c : Char} (h : c.toNat < 128) : ofChar c = [c] := by
  have hbyte : (UInt8.ofNat c.toNat).toNat = c.toNat :=
    UInt8.toNat_ofNat_of_lt' (Nat.lt_trans h (by decide))
  have hbytes : String.utf8EncodeChar c = [UInt8.ofNat c.toNat] := if_pos (Nat.le_of_lt_succ h)
  rw [ofChar, hbytes, List.map_singleton, ofByte, hbyte, Char.ofNat_toNat]

/-- The octets of the other characters have large numbers. -/
theorem le_of_mem_ofChar {c o : Char} (hc : 128 ≤ c.toNat) (h : o ∈ ofChar c) : 128 ≤ o.toNat := by
  obtain ⟨b, hb, rfl⟩ := List.mem_map.mp h
  rw [toNat_ofByte]
  have hlarge : ¬ c.val.toNat ≤ 127 := Nat.not_le.mpr hc
  rw [String.utf8EncodeChar, if_neg hlarge] at hb
  split at hb
  · simp only [List.mem_cons, List.not_mem_nil, or_false] at hb
    obtain rfl | rfl := hb <;> (rw [UInt8.toNat_ofNat']; omega)
  · split at hb
    · simp only [List.mem_cons, List.not_mem_nil, or_false] at hb
      obtain rfl | rfl | rfl := hb <;> (rw [UInt8.toNat_ofNat']; omega)
    · simp only [List.mem_cons, List.not_mem_nil, or_false] at hb
      obtain rfl | rfl | rfl | rfl := hb <;> (rw [UInt8.toNat_ofNat']; omega)

theorem mem_ofChar_iff {c separator : Char} (h : separator.toNat < 128) :
    separator ∈ ofChar c ↔ c = separator := by
  by_cases hc : c.toNat < 128
  · rw [ofChar_of_small hc, List.mem_singleton, eq_comm]
  · refine ⟨fun hmem => ?_, ?_⟩
    · exact absurd (le_of_mem_ofChar (Nat.le_of_not_lt hc) hmem) (Nat.not_le.mpr h)
    · rintro rfl
      exact absurd h hc

theorem mem_ofString_iff {text : String} {c : Char} (h : c.toNat < 128) :
    c ∈ ofString text ↔ c ∈ text.toList := by
  rw [ofString_eq_flatMap, List.mem_flatMap]
  simp only [mem_ofChar_iff h, exists_eq_right]

theorem ofString_ofList_ne_nil {part : List Char} (h : part ≠ []) :
    ofString (String.ofList part) ≠ [] := by
  obtain ⟨c, rest, rfl⟩ := List.exists_cons_of_ne_nil h
  rw [ofString_eq_flatMap, String.toList_ofList, List.flatMap_cons]
  refine List.append_ne_nil_of_left_ne_nil ?_ _
  exact mt List.map_eq_nil_iff.mp String.utf8EncodeChar_ne_nil

/-- A text is cut where its octets are. -/
theorem splitAt_ofString {separator : Char} (h : separator.toNat < 128) (text : String) :
    splitAt separator (ofString text) =
      (splitAt separator text.toList).map fun part => ofString (String.ofList part) := by
  rw [ofString_eq_flatMap, splitAt_flatMap (ofChar_of_small h)
    fun c hc hmem => hc ((mem_ofChar_iff h).mp hmem)]
  refine List.map_congr_left fun part _ => ?_
  rw [ofString_eq_flatMap, String.toList_ofList]

end Octets

/-! ### Artifacts -/

/-- The parts of a name, which are cut off at its slashes, are not empty and have no dots. -/
def IsPlainName (name : String) : Prop :=
  ∀ part ∈ splitAt '/' name.toList, part ≠ [] ∧ '.' ∉ part

instance (name : String) : Decidable (IsPlainName name) :=
  inferInstanceAs (Decidable (∀ _ ∈ _, _))

/-- The names that lead from a directory of classes to the artifact of a class. -/
def artifactWay (name : String) : List Octets :=
  splitAt '/' (Octets.ofString (name ++ classSuffix))

theorem artifactWay_ne_nil (name : String) : artifactWay name ≠ [] := splitAt_ne_nil _

theorem joined_artifactWay (name : String) :
    Path.joined (artifactWay name) = Octets.ofString (name ++ classSuffix) := Path.joined_splitAt _

theorem ofString_classSuffix : Octets.ofString classSuffix = '.' :: classExtension.toList := by
  decide

section

variable {name : String}

/-- The parts of a plain name as octets: the last one gets a suffix, and is then the name of an
artifact. -/
theorem IsPlainName.exists_parts (h : IsPlainName name) : ∃ init last,
    splitAt '/' (Octets.ofString name) = init ++ [last] ∧
      artifactWay name = init ++ [last ++ '.' :: classExtension.toList] ∧
      (∀ part ∈ init ++ [last], Path.isName part = true) ∧ '.' ∉ last ∧
      Path.isName (last ++ '.' :: classExtension.toList) = true ∧
      isArtifactName (last ++ '.' :: classExtension.toList) = true := by
  obtain ⟨init, part, hparts⟩ : ∃ init part, splitAt '/' name.toList = init ++ [part] :=
    (splitAt '/' name.toList).eq_nil_or_concat'.resolve_left (splitAt_ne_nil _)
  have hdot (p : List Char) (hp : p ∈ splitAt '/' name.toList) :
      '.' ∉ Octets.ofString (String.ofList p) := by
    rw [Octets.mem_ofString_iff (by decide), String.toList_ofList]
    exact (h p hp).2
  have hname (p : List Char) (hp : p ∈ splitAt '/' name.toList) :
      Path.isName (Octets.ofString (String.ofList p)) = true := by
    refine Path.isName_of_notMem (Octets.ofString_ofList_ne_nil (h p hp).1) (hdot p hp) ?_
      fun c => Octets.toNat_lt_of_mem_ofString
    rw [Octets.mem_ofString_iff (by decide), String.toList_ofList]
    exact notMem_of_mem_splitAt hp
  have hpart : part ∈ splitAt '/' name.toList := by simp [hparts]
  have hsplit : splitAt '/' (Octets.ofString name) =
      init.map (fun p => Octets.ofString (String.ofList p)) ++
        [Octets.ofString (String.ofList part)] := by
    rw [Octets.splitAt_ofString (by decide), hparts, List.map_append, List.map_singleton]
  have hnames : ∀ n ∈ init.map (fun p => Octets.ofString (String.ofList p)) ++
      [Octets.ofString (String.ofList part)], Path.isName n = true := by
    rw [← hsplit, Octets.splitAt_ofString (by decide)]
    exact List.forall_mem_map.mpr hname
  have hbyte : ∀ c ∈ '.' :: classExtension.toList, c.toNat < 256 := by
    rw [← ofString_classSuffix]
    exact fun c => Octets.toNat_lt_of_mem_ofString
  have hextended : Path.isName
      (Octets.ofString (String.ofList part) ++ '.' :: classExtension.toList) = true :=
    Path.isName_append (hname part hpart) (hdot part hpart) (by decide) hbyte
  refine ⟨_, _, hsplit, ?_, hnames, hdot part hpart, hextended, ?_⟩
  · rw [artifactWay, Octets.ofString_append, ofString_classSuffix,
      ← Path.joined_splitAt (Octets.ofString name), hsplit, ← Path.joined_concat_append]
    refine Path.splitAt_joined (by simp) (List.forall_mem_append.mpr ⟨fun n hn => ?_, ?_⟩)
    · exact Path.slash_notMem_of_isName (hnames n (List.mem_append_left _ hn))
    · exact List.forall_mem_singleton.mpr (Path.slash_notMem_of_isName hextended)
  · refine isArtifactName_iff.mpr ⟨?_, List.suffix_append _ _, ?_⟩
    · rw [← ofString_classSuffix, ← Octets.ofString_append, Octets.text?_ofString]
      rfl
    · rw [List.head?_append_of_ne_nil _ (Path.isName_iff.mp (hname part hpart)).1]
      exact fun hhead => hdot part hpart (List.mem_of_mem_head? hhead)

/-- **The path of an artifact** is the directory with the name and the suffix below it. -/
theorem artifactPath_eq_join (dir : Path) (h : IsPlainName name) :
    artifactPath dir name = Path.join dir (Path.joined (artifactWay name)) := by
  obtain ⟨init, last, hparts, hway, hnames, hdot, hextended, -⟩ := h.exists_parts
  rw [artifactPath, hparts, Path.foldl_join dir (by simp) hnames,
    Path.withExtension_join hnames hdot hextended, hway]

theorem isName_of_mem_artifactWay (h : IsPlainName name) :
    ∀ n ∈ artifactWay name, Path.isName n = true := by
  obtain ⟨init, last, -, hway, hnames, -, hextended, -⟩ := h.exists_parts
  rw [hway]
  intro n hn
  obtain hn | hn := List.mem_append.mp hn
  · exact hnames n (List.mem_append_left _ hn)
  · rw [List.mem_singleton.mp hn]
    exact hextended

/-- **The name that is read off** the path of an artifact is that of its class. -/
theorem internalName?_artifactPath (dir : Path) (h : IsPlainName name) :
    internalName? dir (artifactPath dir name) = some name := by
  have hsuffix : classSuffix.toList <:+ (name ++ classSuffix).toList := by
    rw [String.toList_append]
    exact List.suffix_append _ _
  rw [artifactPath_eq_join dir h, internalName?,
    Path.stripPrefix?_join dir (artifactWay_ne_nil name) (isName_of_mem_artifactWay h),
    joined_artifactWay, Option.bind_some, Octets.text?_ofString, Option.bind_some, stripEnd?,
    if_pos (List.isSuffixOf_iff_suffix.mpr hsuffix), String.toList_append, List.length_append,
    Nat.add_sub_cancel, List.take_left, String.ofList_toList]

/-- Different classes have different artifacts. -/
theorem artifactPath_inj {dir : Path} {name' : String} (h : IsPlainName name)
    (h' : IsPlainName name') (heq : artifactPath dir name = artifactPath dir name') :
    name = name' := by
  have hname := internalName?_artifactPath dir h
  rw [heq, internalName?_artifactPath dir h'] at hname
  exact (Option.some.inj hname).symm

/-- The file of an artifact has the name of one. -/
theorem fileName?_artifactPath (dir : Path) (h : IsPlainName name) :
    (Path.fileName? (artifactPath dir name)).any isArtifactName = true := by
  have hsteps := Path.steps_join dir (artifactWay_ne_nil name) (isName_of_mem_artifactWay h)
  obtain ⟨init, last, -, hway, -, -, -, hartifact⟩ := h.exists_parts
  rw [← artifactPath_eq_join dir h, hway, List.map_append, ← List.append_assoc] at hsteps
  rw [← Path.lastName?_steps, hsteps, List.map_singleton, Path.lastName?_concat]
  exact hartifact

end

end MutationTesting
