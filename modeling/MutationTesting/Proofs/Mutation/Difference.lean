import MutationTesting.Proofs.Class.Listing
import MutationTesting.Proofs.Mutation.ChangedLines
import MutationTesting.Proofs.Mutation.VisibleChange
/-!
# Differences of mutants

The difference of a mutant is taken between listings, which leave much out, and for the method that
has the signature of the site. That it hides no change has to be shown for every policy.

Characters are counted for this, but those that a line marker may consist of are not, so that the
line markers which a mutant forgets do not matter. All other items of which a replacement consists
have characters that count. The item that is replaced mostly stays among them, and then the
replacement has more. The exceptions are a text that loses a letter, which has less, and a check of
three arguments, whose descriptor alone is longer than the four operations that take its place.

## Main definitions

* `excess` — the characters of a text that count

## Main results

* `sum_excess_ne_of_replaces` — replacements
* `reveals_listing` — listings show all changes
* `difference_tells_the_truth`
-/

namespace MutationTesting

open Decimal

/-! ### Characters that count -/

/-- The characters of which line markers consist in a listing. -/
def markerCharacters : List Char := "line L0123456789\n".toList

/-- The number of characters in a text that are in no line marker. -/
def excess (text : List Char) : Nat := text.countP fun c => !markerCharacters.contains c

@[simp] theorem excess_append (s t : List Char) : excess (s ++ t) = excess s + excess t :=
  List.countP_append

theorem excess_cons (c : Char) (s : List Char) :
    excess (c :: s) = (if c ∈ markerCharacters then 0 else 1) + excess s := by
  rw [excess, List.countP_cons, Nat.add_comm]
  by_cases h : c ∈ markerCharacters <;> simp [h, excess]

theorem excess_natText (n : Nat) : excess (natText n) = 0 := by
  have hdigits : ∀ d < 10, digitChar d ∈ markerCharacters := by decide
  refine List.countP_eq_zero.mpr fun c hc => ?_
  obtain ⟨d, hd, rfl⟩ := List.mem_map.mp hc
  simpa using hdigits d (digits_lt n d hd)

/-- The spaces between words do not count. -/
theorem excess_spaced (words : List (List Char)) :
    excess (spaced words) = (words.map excess).sum := by
  have hspace : excess [' '] = 0 := by decide
  induction words with
  | nil => rfl
  | cons word words ih =>
    cases words with
    | nil => simp [spaced]
    | cons next words =>
      rw [spaced, List.intercalate_cons_cons, excess_append, excess_append, hspace,
        Nat.add_zero, List.map_cons, List.sum_cons]
      exact congrArg _ ih

namespace Instruction

/-- The indentation of an instruction does not count. -/
theorem excess_listing {i : Instruction} {op : Opcode} (h : i.opcode? = some op) :
    excess i.listing = (i.words.map excess).sum := by
  have hindent : excess "    ".toList = 0 := by decide
  obtain ⟨operands, -, -, hlisting⟩ := exists_words h
  rw [hlisting, excess_append, hindent, Nat.zero_add, excess_spaced]

theorem excess_line (n : UInt32) (l : Label) : excess (line n l).listing = 0 := by
  have hlabel : excess (labelText l) = 0 := by
    rw [labelText, excess_cons, if_pos (by decide), excess_natText]
  change excess ("  ".toList ++ spaced ["line".toList, natText n.toNat, labelText l]) = 0
  rw [excess_append, excess_spaced]
  simp only [List.map_cons, List.map_nil, List.sum_cons, List.sum_nil, hlabel, excess_natText]
  decide

theorem excess_load (value : Constant) :
    excess (load value).listing = 2 + excess value.listing := by
  have hname : excess "ldc".toList = 2 := by decide
  rw [excess_listing (show (load value).opcode? = some .ldc from rfl), words]
  simp only [List.map_cons, List.map_nil, List.sum_cons, List.sum_nil, hname, Nat.add_zero]

theorem excess_call (op : Opcode) (m : Member) (interface : Bool) :
    excess (call op m interface).listing = excess op.name.toList +
      (excess m.owner.toList + 1 + excess m.name.toList + excess m.descriptor.toList) := by
  have hpoint (s : List Char) : excess ('.' :: s) = 1 + excess s := excess_cons '.' s
  have hspace (s : List Char) : excess (' ' :: s) = excess s := by
    rw [excess_cons, if_pos (by decide), Nat.zero_add]
  rw [excess_listing (show (call op m interface).opcode? = some op from rfl), words, Member.listing]
  simp only [List.map_cons, List.map_nil, List.sum_cons, List.sum_nil, excess_append, hpoint,
    hspace]
  omega

end Instruction

/-! ### What policies replace -/

/-- A letter of a secure scheme, in either case. -/
theorem mem_of_toLower_mem {c : Char} (h : c.toLower ∈ "https".toList) :
    c ∈ "https".toList ++ "HTTPS".toList := by
  by_cases hupper : c.val ≥ 'A'.val ∧ c.val ≤ 'Z'.val
  · have hval : c.toLower.val = c.val + 32 := congrArg Char.val (dif_pos hupper)
    have hlt : c.toNat < 4294967296 := c.val.toNat_lt
    refine List.mem_append_right _ ?_
    simp [Char.ext_iff, hval, ← UInt32.toNat_inj] at h ⊢
    omega
  · have hsame : c.toLower = c := dif_neg hupper
    exact List.mem_append_left _ (hsame ▸ h)

theorem length_le_excess_flatMap {s : List Char} (h : ∀ c ∈ s, 0 < excess (Quoted.char c)) :
    s.length ≤ excess (s.flatMap Quoted.char) := by
  induction s with
  | nil => exact Nat.zero_le _
  | cons c s ih =>
    obtain ⟨hc, hs⟩ := List.forall_mem_cons.mp h
    have := ih hs
    rw [List.flatMap_cons, excess_append, List.length_cons]
    omega

theorem excess_loadText (s : String) :
    excess (Instruction.loadText s).listing = 4 + excess (s.toList.flatMap Quoted.char) := by
  have hquote (s : List Char) : excess ('"' :: s) = 1 + excess s := excess_cons '"' s
  have hstop : excess ['"'] = 1 := by decide
  rw [Instruction.loadText, Instruction.excess_load, Constant.listing, Quoted.text, excess_append,
    hquote, hstop]
  omega

/-- A text without a letter of its scheme shows less. -/
theorem excess_loadText_lt_of_downgradeScheme? {s plain : String}
    (h : Policy.downgradeScheme? s = some plain) :
    excess (Instruction.loadText plain).listing < excess (Instruction.loadText s).listing := by
  obtain ⟨start, rest, hlength, hstart, hs, hplain⟩ := Policy.exists_of_downgradeScheme? h
  have hletters : ("https".toList ++ "HTTPS".toList).all fun c => 0 < excess (Quoted.char c) := by
    decide
  have hlow : start.length ≤ excess (start.flatMap Quoted.char) := by
    refine length_le_excess_flatMap fun c hc => ?_
    have hlower : c.toLower ∈ "https".toList := hstart ▸ List.mem_map_of_mem hc
    exact of_decide_eq_true (List.all_eq_true.mp hletters c (mem_of_toLower_mem hlower))
  have hhttp : excess ("http".toList.flatMap Quoted.char) = 4 := by decide
  rw [excess_loadText, excess_loadText, hs, hplain, List.flatMap_append, List.flatMap_append,
    excess_append, excess_append, hhttp]
  omega

/-- A lookup with a default shows no less than one without. -/
theorem excess_descriptor_le_of_defaultOverride? {descriptor : String} {o : Policy.DefaultOverride}
    (h : Policy.defaultOverride? descriptor = some o) :
    excess descriptor.toList ≤ excess o.descriptor.toList := by
  obtain ⟨result, drop, push, -, -, hfull, ⟨-, hdescriptor⟩ | ⟨-, hdescriptor⟩⟩ :=
    Policy.exists_override h
  · rw [hdescriptor]
  · simp only [hfull, hdescriptor, String.toList_append, excess_append]
    omega

/-- What loads a default shows. -/
theorem excess_push_pos {x : String × Opcode × Instruction} (h : x ∈ Policy.overrides) :
    0 < excess x.2.2.listing := by
  have hload : x.2.2 = .simple .iconst1 ∨ ∃ value, x.2.2 = .load value := by
    simp only [Policy.overrides, List.mem_cons, List.not_mem_nil, or_false] at h
    obtain rfl | rfl | rfl | rfl | rfl := h
    · exact .inl rfl
    · exact .inr ⟨_, rfl⟩
    · exact .inr ⟨_, rfl⟩
    · exact .inr ⟨_, rfl⟩
    · exact .inr ⟨_, rfl⟩
  obtain hload | ⟨value, hload⟩ := hload
  · rw [hload]
    decide
  · rw [hload, Instruction.excess_load]
    omega

/-- **Replacements** show more than what they replace, or less. -/
theorem sum_excess_ne_of_replaces {p : Policy} {i : Instruction} {r : List Instruction}
    (h : p.Replaces i r) : (r.map fun j => excess j.listing).sum ≠ excess i.listing := by
  have hpop : excess (Instruction.simple .pop).listing = 3 := by decide
  cases h with
  | scheme h =>
    have hless := excess_loadText_lt_of_downgradeScheme? h
    simp only [List.map_cons, List.map_nil, List.sum_cons, List.sum_nil]
    omega
  | @newDefault op m interface o _ ho =>
    obtain ⟨result, drop, push, hmem, hpush, -⟩ := Policy.exists_override ho
    have hpositive : 0 < excess o.push.listing := hpush ▸ excess_push_pos hmem
    have hle := excess_descriptor_le_of_defaultOverride? ho
    simp only [List.map_append, List.map_cons, List.map_nil, List.sum_append, List.sum_cons,
      List.sum_nil, Instruction.excess_call]
    omega
  | key op m interface other =>
    simp only [List.map_cons, List.map_nil, List.sum_cons, List.sum_nil, hpop]
    omega
  | stored n =>
    have hpositive : 0 < excess (Instruction.simple .iconst1).listing := by decide
    simp only [Policy.processDocumentTypes, List.map_cons, List.map_nil, List.sum_cons,
      List.sum_nil]
    omega
  | returned =>
    have hpositive : 0 < excess (Instruction.simple .dup).listing := by decide
    simp only [List.map_append, List.map_cons, List.map_nil, List.sum_append, List.sum_cons,
      List.sum_nil]
    omega
  | index _ =>
    simp only [List.map_cons, List.map_nil, List.sum_cons, List.sum_nil, hpop]
    omega
  | @check op m interface hdescriptor =>
    have hlong : 12 < excess m.descriptor.toList := by
      rw [hdescriptor]
      decide +kernel
    split <;>
      simp only [List.map_append, List.map_cons, List.map_nil, List.sum_append, List.sum_cons,
        List.sum_nil, hpop, Instruction.excess_call] <;>
      omega
  | protocol _ =>
    simp only [Policy.breakProtocol, List.map_append, List.map_cons, List.map_nil, List.sum_append,
      List.sum_cons, List.sum_nil, hpop]
    omega
  | buriedProtocol _ _ =>
    have hpositive : 0 < excess (Instruction.simple .swap).listing := by decide
    simp only [List.map_append, List.map_cons, List.map_nil, List.sum_append, List.sum_cons,
      List.sum_nil]
    omega

/-- **Listings show all changes.** -/
theorem reveals_listing : Reveals (fun i => i.listing ++ ['\n']) fun i => excess i.listing where
  line := Instruction.excess_line
  replaces := sum_excess_ne_of_replaces
  sum_weight {code code'} h := by
    have hfeed : excess ['\n'] = 0 := by decide
    have hcount (code : List Instruction) : excess (code.flatMap fun i => i.listing ++ ['\n']) =
        (code.map fun i => excess i.listing).sum := by
      rw [excess, List.countP_flatMap]
      refine congrArg List.sum (List.map_congr_left fun i _ => ?_)
      change excess (i.listing ++ ['\n']) = _
      rw [excess_append, hfeed, Nat.add_zero]
    rw [← hcount, ← hcount, h]
  simple {code ops} h := by
    induction ops generalizing code with
    | nil => exact List.eq_nil_iff_forall_not_mem.mpr (by simpa using h)
    | cons op ops ih =>
      cases code with
      | nil => simp at h
      | cons i code =>
        simp only [List.map_cons, List.flatMap_cons, List.append_assoc, List.singleton_append] at h
        obtain ⟨rfl, hcode⟩ := Instruction.eq_simple_of_listing_append_eq h
        rw [ih hcode, List.map_cons]

/-! ### Differences of mutants -/

theorem Method.signature_withCode (m : Method) (code : List Instruction) :
    (m.withCode code).signature = m.signature := by
  rw [withCode]
  split <;> rfl

/-- A method is found if no method before it has its signature. -/
theorem ClassFile.method?_eq_some {c : ClassFile} {before after : List Method} {m : Method}
    (h : c.methods = before ++ m :: after) (hbefore : m.signature ∉ before.map (·.signature)) :
    c.method? m.signature = some m := by
  have hother : ∀ m' ∈ before, ¬ (m'.signature == m.signature) = true := fun m' hm' heq =>
    hbefore (List.mem_map.mpr ⟨m', hm', eq_of_beq heq⟩)
  rw [method?, h, List.find?_append, List.find?_eq_none.mpr hother, Option.none_or,
    List.find?_cons_of_pos (by simp)]

section

variable {policies : List Policy} {c : ClassFile} {s : Site}

/-- **The listing of a mutated method** is that of the method iff the artifact of the mutant is that
of its class. -/
theorem Site.listing_eq_iff (hs : s ∈ c.sitesOf policies) :
    s.place.method.listing = (s.place.method.withCode s.code).listing ↔
      (s.mutate c).toBytes = c.toBytes := by
  obtain ⟨-, -, hplace, -⟩ := ClassFile.mem_sitesOf.mp hs
  obtain ⟨-, hwhole⟩ := ClassFile.mem_places.mp hplace
  by_cases hinert : s.policy = .inert
  · have hcode : s.code = s.place.method.instructions :=
      (code_of_none ((replacement_eq_none_iff hs).mpr hinert)).trans hwhole
    rw [mutate_of_code_eq hs hcode, hcode, Method.withCode_self]
    exact iff_of_true rfl rfl
  · rw [toBytes_mutate_eq_iff hs hinert, ← reveals_listing.flatMap_view_eq_iff hs hinert,
      Method.listing_eq_iff (Method.signature_withCode _ _).symm, eq_comm]

end

/-- **The difference of a mutant tells the truth.** If the methods of a class have different
signatures, the difference is between the listings of the method in which the number of the mutant
was issued. It is empty iff the mutant is its class again. The lines with a minus, taken out of the
one listing, and the lines with a plus, taken out of the other, leave the same lines. All this holds
of whatever differ finds the lines that stay. -/
theorem difference_tells_the_truth {c : ClassFile} {policies : List Policy} {m : Mutation}
    (differ : Differ (List Char)) (hm : m ∈ findMutations c policies)
    (hnodup : (c.methods.map (·.signature)).Nodup) :
    ∃ (pl : Place) (method : Method) (mutant : Mutant) (kept : List (List Char)),
      (∀ pl', c.IssuesAt policies pl' m.id.index ↔ pl' = pl) ∧
      c.method? m.id.method = some pl.method ∧
      (mutateClass c policies (some m.id)).1.method? m.id.method = some method ∧
      materialize c policies m.id differ = .ok mutant ∧
      (mutant.diff = "" ↔ mutant.artifact = c.toBytes) ∧
      Interleave (markedLines '-' mutant.diff.toList) kept (splitLines pl.method.listing) ∧
      Interleave (markedLines '+' mutant.diff.toList) kept (splitLines method.listing) := by
  obtain ⟨n, s, hs, rfl⟩ := exists_site_of_mem hm
  have hmem := List.mem_of_getElem? hs
  obtain ⟨-, -, hplace, -⟩ := ClassFile.mem_sitesOf.mp hmem
  obtain ⟨hmethods, -⟩ := ClassFile.mem_places.mp hplace
  obtain ⟨pass, hpass, -⟩ := mutateClass_id hs
  have hclass : (mutateClass c policies (some (s.mutation (.ofClass c) n).id)).1 = s.mutate c :=
    congrArg Prod.fst hpass
  have hsignature := Method.signature_withCode s.place.method s.code
  have hfirst : s.place.method.signature ∉ s.place.methods.before.map (·.signature) := by
    rw [← hmethods, Split.whole, List.map_append, List.map_cons, List.nodup_append] at hnodup
    obtain ⟨-, -, hdifferent⟩ := hnodup
    exact fun h => hdifferent _ h _ (List.mem_cons_self ..) rfl
  have hbefore : c.method? s.place.method.signature = some s.place.method :=
    ClassFile.method?_eq_some hmethods.symm hfirst
  have hafter : (s.mutate c).method? s.place.method.signature =
      some (s.place.method.withCode s.code) := by
    rw [← hsignature] at hfirst ⊢
    exact ClassFile.method?_eq_some rfl hfirst
  have hdiff : methodDiff s.place.method.signature c (s.mutate c) differ =
      lineDiff s.place.method.listing (s.place.method.withCode s.code).listing differ := by
    rw [methodDiff, hbefore, hafter]
  obtain ⟨kept, hminus, hplus⟩ := exists_interleave_lineDiff differ (Method.getLast?_listing _)
    (Method.getLast?_listing _)
  rw [← hdiff] at hminus hplus
  refine ⟨s.place, _, _, kept, fun pl => ClassFile.issuesAt_iff_eq_place hs, hbefore,
    hclass ▸ hafter, materialize_id hs differ, ?_, hminus, hplus⟩
  have hlisting := Site.listing_eq_iff hmem
  rw [hdiff, lineDiff_eq_empty_iff differ (Method.getLast?_listing _) (Method.getLast?_listing _),
    hlisting]

/-- The difference of a mutant that asks for an address in the clear. -/
theorem difference_of_plain_address :
    let load (address : String) : Method :=
      .plain "m" "()V" publicFlag [.label 0, .line 7 0, .loadText address]
    let c : ClassFile := { ClassFile.empty "a/B" with methods := [load "https://a"] }
    let m : Mutation :=
      ⟨⟨"https_to_http", "a/B", "m()V", 0, "Changed 'https' to 'http' in String"⟩, 7, none⟩
    m ∈ findMutations c Policy.defaults ∧ (c.methods.map (·.signature)).Nodup ∧
      ∃ mutant kept, materialize c Policy.defaults m.id = .ok mutant ∧
        mutant.diff = "-     ldc \"https://a\"\n+     ldc \"http://a\"\n" ∧
        (mutant.diff = "" ↔ mutant.artifact = c.toBytes) ∧
        Interleave (markedLines '-' mutant.diff.toList) kept
          (["m()V\n", "L0:\n", "  line 7 L0\n", "    ldc \"https://a\"\n"].map String.toList) ∧
        Interleave (markedLines '+' mutant.diff.toList) kept
          (["m()V\n", "L0:\n", "  line 7 L0\n", "    ldc \"http://a\"\n"].map String.toList) := by
  intro load c m
  have hm : m ∈ findMutations c Policy.defaults := by
    subst m c load
    decide +kernel
  have hnodup : (c.methods.map (·.signature)).Nodup := by
    subst c load
    decide
  obtain ⟨pl, method, mutant, kept, -, hbefore, hafter, hmutant, hempty, hminus, hplus⟩ :=
    difference_tells_the_truth .snakes hm hnodup
  have hfound : c.method? m.id.method = some (load "https://a") := by
    subst m c load
    decide +kernel
  have hfound' : (mutateClass c Policy.defaults (some m.id)).1.method? m.id.method =
      some (load "http://a") := by
    subst m c load
    decide +kernel
  rw [← Option.some.inj (hfound.symm.trans hbefore)] at hminus
  rw [← Option.some.inj (hfound'.symm.trans hafter)] at hplus
  have hdiff : (materialize c Policy.defaults m.id).map (·.diff) =
      .ok "-     ldc \"https://a\"\n+     ldc \"http://a\"\n" := by
    subst m c load
    decide +kernel
  rw [hmutant] at hdiff
  refine ⟨hm, hnodup, mutant, kept, hmutant, Except.ok.inj hdiff, hempty, ?_, ?_⟩
  · convert hminus using 1
    subst load
    decide +kernel
  · convert hplus using 1
    subst load
    decide +kernel

end MutationTesting
