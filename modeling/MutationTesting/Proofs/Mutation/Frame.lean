import MutationTesting.Proofs.Mutation.LiveSite
/-!
# What a mutant leaves alone

A pass with a live site rewrites one item of one method. The item is the one at which the number
of the site was issued, which is said here without sites: a number is issued at an item if the
class that ends before the item has too few sites for it and the class that ends with the item has
enough. So a number has one place, also in a class in which methods share a signature.

## Main definitions

* `Place.cut` — a class that ends within a method
* `ClassFile.IssuesAt` — a number is issued at a place
* `Policy.Rewrites` — how code is rewritten at an item

## Main results

* `ClassFile.issuesAt_iff` — the place of a number is that of the site with this number
* `mutant_differs_at_place_of_issue`
-/

namespace MutationTesting

/-! ### The place of a number -/

/-- The class that ends within the method of a place, after the given items. -/
def Place.cut (c : ClassFile) (pl : Place) (items : List Instruction) : ClassFile :=
  { c with methods := pl.methods.before ++ [{ pl.method with instructions := items }] }

/-- A pass over a class issues the number when it comes to the item of the place. -/
structure ClassFile.IssuesAt (c : ClassFile) (policies : List Policy) (pl : Place) (n : Nat) :
    Prop where
  /-- The methods of the class are those of the place. -/
  methods : c.methods = pl.methods.before ++ pl.method :: pl.methods.after
  /-- The code of the method is that of the place. -/
  code : pl.method.instructions = pl.code.before ++ pl.code.item :: pl.code.after
  /-- Before the item there are too few sites for the number. -/
  before : (findMutations (pl.cut c pl.code.before) policies).length ≤ n
  /-- With the item there are enough. -/
  item : n < (findMutations (pl.cut c (pl.code.before ++ [pl.code.item])) policies).length

/-- The number of sites at a place depends on the name of the method and on the items so far. -/
theorem Place.length_sitesOf_congr {classInfo : ClassInfo} {policies : List Policy} {pl pl' : Place}
    (hname : pl.method.name = pl'.method.name) (hbefore : pl.code.before = pl'.code.before)
    (hitem : pl.code.item = pl'.code.item) :
    (pl.sitesOf classInfo policies).length = (pl'.sitesOf classInfo policies).length := by
  have hfinding : pl.finding? classInfo = pl'.finding? classInfo := by
    funext p
    rw [finding?, finding?, methodInfo, methodInfo, hname, hbefore, hitem]
  simp only [sitesOf, List.length_filterMap_eq_countP, hfinding, Option.isSome_map]

/-- The number of sites at the items of a stream does not depend on what comes after them. -/
theorem length_flatMap_splitsFrom {α β : Type} {f g : Split α → List β} {before mid : List α}
    (after after' : List α)
    (h : ∀ first x rest rest', (f ⟨first, x, rest⟩).length = (g ⟨first, x, rest'⟩).length) :
    ((splitsFrom before mid after).flatMap f).length =
      ((splitsFrom before mid after').flatMap g).length := by
  induction mid generalizing before with
  | nil => rfl
  | cons x mid ih =>
    simp only [splitsFrom, List.flatMap_cons, List.length_append, ih]
    rw [h]

theorem Split.length_sitesAt_congr {classInfo : ClassInfo} {policies : List Policy}
    {methods methods' : Split Method} {mid : List Instruction} (after after' : List Instruction)
    (hname : methods.item.name = methods'.item.name) :
    (methods.sitesAt classInfo policies (splitsFrom [] mid after)).length =
      (methods'.sitesAt classInfo policies (splitsFrom [] mid after')).length :=
  length_flatMap_splitsFrom after after' fun _ _ _ _ => Place.length_sitesOf_congr hname rfl rfl

/-- The sites of a class that ends within the method of a place. -/
theorem Place.length_sitesOf_cut (c : ClassFile) (policies : List Policy) (pl : Place)
    (items rest : List Instruction) :
    ((pl.cut c items).sitesOf policies).length =
      (pl.sitesInMethodsBefore (.ofClass c) ((ClassInfo.ofClass c).heeded policies)).length +
        (pl.methods.sitesAt (.ofClass c) ((ClassInfo.ofClass c).heeded policies)
          (splitsFrom [] items rest)).length := by
  have hinfo : ClassInfo.ofClass (pl.cut c items) = .ofClass c := rfl
  rw [ClassFile.sitesOf_eq, hinfo, cut, splits, splitsFrom_append, List.flatMap_append,
    List.length_append]
  congr 1
  · exact length_flatMap_splitsFrom _ _ fun first m _ _ => Split.length_sitesAt_congr [] [] rfl
  · rw [splitsFrom, splitsFrom, List.flatMap_cons, List.flatMap_nil, List.append_nil]
    exact Split.length_sitesAt_congr [] rest rfl

theorem Place.length_sitesOf_cut_before (c : ClassFile) (policies : List Policy) (pl : Place) :
    ((pl.cut c pl.code.before).sitesOf policies).length =
      (pl.sitesInMethodsBefore (.ofClass c) ((ClassInfo.ofClass c).heeded policies)).length +
        (pl.sitesInItemsBefore (.ofClass c) ((ClassInfo.ofClass c).heeded policies)).length :=
  pl.length_sitesOf_cut c policies pl.code.before _

/-- With the item of the place come the sites at the place. -/
theorem Place.length_sitesOf_cut_item (c : ClassFile) (policies : List Policy) (pl : Place) :
    ((pl.cut c (pl.code.before ++ [pl.code.item])).sitesOf policies).length =
      ((pl.cut c pl.code.before).sitesOf policies).length +
        (pl.sitesOf (.ofClass c) ((ClassInfo.ofClass c).heeded policies)).length := by
  rw [pl.length_sitesOf_cut c policies _ pl.code.after, pl.length_sitesOf_cut_before c policies,
    splitsFrom_append, Split.sitesAt, List.flatMap_append, List.length_append, Nat.add_assoc]
  simp [splitsFrom, sitesInItemsBefore, Split.sitesAt]

/-- The sites of a class before, at and after a place. -/
theorem ClassFile.sitesOf_of_mem_places (policies : List Policy) {c : ClassFile} {pl : Place}
    (h : pl ∈ c.places) :
    ∃ rest, c.sitesOf policies =
      pl.sitesInMethodsBefore (.ofClass c) ((ClassInfo.ofClass c).heeded policies) ++
        (pl.sitesInItemsBefore (.ofClass c) ((ClassInfo.ofClass c).heeded policies) ++
          (pl.sitesOf (.ofClass c) ((ClassInfo.ofClass c).heeded policies) ++ rest)) := by
  obtain ⟨hm, hc⟩ := mem_places.mp h
  have hitems : pl.methods.sitesOf (.ofClass c) ((ClassInfo.ofClass c).heeded policies) =
      pl.sitesInItemsBefore (.ofClass c) ((ClassInfo.ofClass c).heeded policies) ++
        (pl.sitesOf (.ofClass c) ((ClassInfo.ofClass c).heeded policies) ++
          pl.methods.sitesAt (.ofClass c) ((ClassInfo.ofClass c).heeded policies)
            (splitsFrom (pl.code.before ++ [pl.code.item]) pl.code.after [])) := by
    have hcode : pl.methods.item.instructions = pl.code.whole := hc.symm
    rw [Split.sitesOf, hcode, splits, Split.whole, splitsFrom_append]
    simp [Split.sitesAt, splitsFrom, Place.sitesInItemsBefore]
  rw [sitesOf_eq, ← hm, splits, Split.whole, splitsFrom_append, List.flatMap_append,
    List.append_nil]
  rw [List.nil_append, splitsFrom, List.append_nil, List.flatMap_cons, hitems, List.append_assoc,
    List.append_assoc]
  exact ⟨_, rfl⟩

/-- **The place of a number** is that of the site with this number. -/
theorem ClassFile.issuesAt_iff {policies : List Policy} {c : ClassFile} {pl : Place} {n : Nat} :
    c.IssuesAt policies pl n ↔ ∃ s, (c.sitesOf policies)[n]? = some s ∧ s.place = pl := by
  constructor
  · rintro ⟨hm, hc, hbefore, hitem⟩
    obtain ⟨rest, hsites⟩ := sitesOf_of_mem_places policies
      (mem_places.mpr ⟨hm.symm, hc.symm⟩)
    rw [length_findMutations, pl.length_sitesOf_cut_before] at hbefore
    rw [length_findMutations, pl.length_sitesOf_cut_item, pl.length_sitesOf_cut_before] at hitem
    rw [hsites, ← List.append_assoc, List.getElem?_append_right (by simpa using hbefore),
      List.getElem?_append_left (by rw [List.length_append]; omega)]
    obtain ⟨s, hs⟩ : ∃ s, (pl.sitesOf (.ofClass c) ((ClassInfo.ofClass c).heeded policies))[n -
        (pl.sitesInMethodsBefore (.ofClass c) ((ClassInfo.ofClass c).heeded policies) ++
          pl.sitesInItemsBefore (.ofClass c) ((ClassInfo.ofClass c).heeded policies)).length]? =
        some s := by
      rw [← Option.isSome_iff_exists, isSome_getElem?]
      rw [List.length_append]
      omega
    exact ⟨s, hs, (Place.mem_sitesOf.mp (List.mem_of_getElem? hs)).2.1⟩
  · rintro ⟨s, hs, rfl⟩
    obtain ⟨first, rest, hsites, rfl⟩ := exists_append_of_getElem? hs
    obtain ⟨-, -, hplace, hfinding⟩ := mem_sitesOf.mp (List.mem_of_getElem? hs)
    obtain ⟨hm, hc⟩ := mem_places.mp hplace
    obtain ⟨front, back, hheeded, hfirst⟩ := sites_before hsites
    have hlength : 0 < (s.place.sitesOf (.ofClass c) (s.policy :: back)).length :=
      List.length_pos_of_mem (Place.mem_sitesOf.mpr ⟨List.mem_cons_self .., rfl, hfinding⟩)
    have hhere : s.place.sitesOf (.ofClass c) ((ClassInfo.ofClass c).heeded policies) =
        s.place.sitesOf (.ofClass c) front ++ s.place.sitesOf (.ofClass c) (s.policy :: back) := by
      rw [hheeded, Place.sitesOf_append]
    refine ⟨hm.symm, hc.symm, ?_, ?_⟩
    · rw [length_findMutations, Place.length_sitesOf_cut_before, hfirst, List.length_append,
        List.length_append]
      omega
    · rw [length_findMutations, Place.length_sitesOf_cut_item, Place.length_sitesOf_cut_before,
        hhere, hfirst, List.length_append, List.length_append, List.length_append]
      omega

/-- The number of a site is issued at the place of the site and at no other. -/
theorem ClassFile.issuesAt_iff_eq_place {policies : List Policy} {c : ClassFile} {pl : Place}
    {n : Nat} {s : Site} (hs : (c.sitesOf policies)[n]? = some s) :
    c.IssuesAt policies pl n ↔ pl = s.place := by
  rw [issuesAt_iff]
  constructor
  · rintro ⟨s', hs', rfl⟩
    rw [Option.some.inj (hs.symm.trans hs')]
  · rintro rfl
    exact ⟨s, hs, rfl⟩

/-! ### The rewritten item -/

/-- How a live finding of a policy rewrites code at an item. -/
inductive Policy.Rewrites (before : List Instruction) (item : Instruction)
    (after : List Instruction) (f : Finding) : Policy → List Instruction → Prop where
  /-- The inert policy rewrites nothing. -/
  | nothing : Rewrites before item after f .inert (before ++ item :: after)
  /-- A policy with a new body keeps the item, and what comes after it goes. -/
  | body {p : Policy} {body : List Instruction} (new : p.newBody? = some body) :
      Rewrites before item after f p (before ++ [item] ++ body)
  /-- Any other policy replaces the item alone. -/
  | item {p : Policy} {replacement : List Instruction} (active : p ≠ .inert)
      (old : p.newBody? = none) (found : f.replacement = some replacement) :
      Rewrites before item after f p (before ++ replacement ++ after)

/-- The code of the method of a live site whose policy replaces single items. -/
theorem Site.exists_replaces {policies : List Policy} {c : ClassFile} {s : Site}
    (hs : s ∈ c.sitesOf policies) (hinert : s.policy ≠ .inert) (hbody : s.policy.newBody? = none) :
    ∃ r, s.policy.Replaces s.place.code.item r ∧ s.finding.replacement = some r ∧
      s.code = s.place.code.before ++ r ++ s.place.code.after := by
  obtain ⟨-, -, -, hfinding⟩ := ClassFile.mem_sitesOf.mp hs
  obtain ⟨r, hr, hf⟩ := Policy.replaces_of_finding hinert hbody hfinding
  have hreplacement : s.finding.replacement = some r := congrArg Finding.replacement hf
  have hend : s.finding.endsBody = false := congrArg Finding.endsBody hf
  exact ⟨r, hr, hreplacement, by simp [code_of_some hreplacement, hend]⟩

/-- The code of the method of a live site whose policy replaces bodies. -/
theorem Site.code_of_newBody? {policies : List Policy} {c : ClassFile} {s : Site}
    {body : List Instruction} (hs : s ∈ c.sitesOf policies)
    (hbody : s.policy.newBody? = some body) :
    s.code = s.place.code.before ++ [s.place.code.item] ++ body := by
  obtain ⟨-, -, -, hfinding⟩ := ClassFile.mem_sitesOf.mp hs
  obtain ⟨-, hreplacement, hend⟩ := Policy.finding_of_newBody? hbody hfinding
  simp [code_of_some hreplacement, hend]

/-- The code of the method of a live site. -/
theorem Site.rewrites {policies : List Policy} {c : ClassFile} {s : Site}
    (hs : s ∈ c.sitesOf policies) :
    s.policy.Rewrites s.place.code.before s.place.code.item s.place.code.after s.finding
      s.code := by
  by_cases hinert : s.policy = .inert
  · rw [code_of_none ((replacement_eq_none_iff hs).mpr hinert), hinert]
    exact .nothing
  · cases hbody : s.policy.newBody? with
    | none =>
      obtain ⟨r, -, hr, hcode⟩ := exists_replaces hs hinert hbody
      rw [hcode]
      exact .item hinert hbody hr
    | some body =>
      rw [code_of_newBody? hs hbody]
      exact .body hbody

/-- New code leaves all of a method but what refers to labels. -/
theorem Method.withCode_agrees (m : Method) (code : List Instruction) :
    { m.withCode code with
      instructions := m.instructions, handlers := m.handlers, locals := m.locals } = m := by
  rw [withCode]
  split <;> rfl

/-- **A mutant differs from its class at one item of one method**, the place at which its number
was issued. There the policy that issued it has rewritten what it found, by the items up to this
one alone. If this makes other code, references to labels that are gone go too; the rest of the
method stays, and so do the other methods and the rest of the class. -/
theorem mutant_differs_at_place_of_issue {c : ClassFile} {policies : List Policy} {m : Mutation}
    (hm : m ∈ findMutations c policies) :
    ∃ (pl : Place) (p : Policy) (f : Finding) (code : List Instruction) (method : Method),
      (∀ pl', c.IssuesAt policies pl' m.id.index ↔ pl' = pl) ∧
      (p ∈ policies ∧ m.id.policy = p.name ∧ m.id.method = pl.method.signature ∧
        m.id.description = f.description) ∧
      (p.inspector ⟨.ofClass c, pl.method.name⟩).finding? pl.code.before pl.code.item = some f ∧
      p.Rewrites pl.code.before pl.code.item pl.code.after f code ∧
      (code = pl.method.instructions → method = pl.method) ∧
      (code ≠ pl.method.instructions →
        method = { pl.method with instructions := code }.pruneDangling) ∧
      { method with
        instructions := pl.method.instructions
        handlers := pl.method.handlers
        locals := pl.method.locals } = pl.method ∧
      (mutateClass c policies (some m.id)).1 =
        { c with methods := pl.methods.before ++ method :: pl.methods.after } := by
  obtain ⟨n, s, hs, rfl⟩ := exists_site_of_mem hm
  obtain ⟨hp, -, -, hfinding⟩ := ClassFile.mem_sitesOf.mp (List.mem_of_getElem? hs)
  obtain ⟨pass, hpass, -⟩ := mutateClass_id hs
  refine ⟨s.place, s.policy, s.finding, s.code, s.place.method.withCode s.code, fun pl => ?_,
    ⟨hp, rfl, rfl, rfl⟩, hfinding, Site.rewrites (List.mem_of_getElem? hs), fun h => if_pos h,
    fun h => if_neg h, Method.withCode_agrees _ _, ?_⟩
  · rw [ClassFile.issuesAt_iff]
    constructor
    · rintro ⟨s', hs', rfl⟩
      rw [Option.some.inj (hs.symm.trans hs')]
    · rintro rfl
      exact ⟨s, hs, rfl⟩
  · change (mutateClass c policies (some (s.id (.ofClass c) n))).1 = _
    rw [hpass]
    rfl

/-- The mutant of the second of two methods with one signature. -/
theorem second_verifier_differs_at_its_line :
    let verify : Method := .plain "verify" "()Z" publicFlag
      [.label 0, .line 7 0, .simple .iconst0, .simple .ireturn]
    let c : ClassFile := { ClassFile.empty "a/B" with
      interfaces := ["javax/net/ssl/HostnameVerifier"], methods := [verify, verify] }
    let m : Mutation := ⟨⟨"hostname_verifier_true", "a/B", "verify()Z", 1,
      "Changed result of HostnameVerifier to constant true"⟩, 7, none⟩
    m ∈ findMutations c Policy.defaults ∧
      ∃ (pl : Place) (p : Policy) (f : Finding) (code : List Instruction) (method : Method),
        (∀ pl', c.IssuesAt Policy.defaults pl' 1 ↔ pl' = pl) ∧
        p.Rewrites pl.code.before pl.code.item pl.code.after f code ∧
        (mutateClass c Policy.defaults (some m.id)).1 =
          { c with methods := pl.methods.before ++ method :: pl.methods.after } := by
  intro verify c m
  have hm : m ∈ findMutations c Policy.defaults := by
    subst m c verify
    decide
  obtain ⟨pl, p, f, code, method, hplace, -, -, hcode, -, -, -, hclass⟩ :=
    mutant_differs_at_place_of_issue hm
  exact ⟨hm, pl, p, f, code, method, hplace, hcode, hclass⟩

end MutationTesting
