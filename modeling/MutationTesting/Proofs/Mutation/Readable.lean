import MutationTesting.Proofs.Class.Artifact
import MutationTesting.Proofs.Mutation.Labels
/-!
# Mutants as artifacts

A mutant is written as an artifact, to be read again. Every number has a literal that is read,
except for infinities. What policies write is finite, so an infinite constant of a mutant was in its
class; and where this was read from an artifact, the constant is a float, because a literal beyond
the range of doubles is refused. A literal beyond the range of floats only is not refused: it is
read as an infinity, for which there is no literal.

## Main results

* `Policy.constants_of_finding` — the constants in a replacement
* `Site.constants_mutate` — the constants of the class with a live site
* `mutant_is_readable_iff`
-/

namespace MutationTesting

open Decimal

/-! ### Constants in replacements -/

namespace Policy

variable {i j : Instruction} {f : Finding} {r : List Instruction} {p : Policy}

/-- What is written loads finite numbers only, if not that of the item. -/
theorem Writes.constants (h : Writes i j) :
    ∀ k ∈ j.constants, k ∈ i.constants ∨ k.isFinite = true := by
  cases h with
  | item => exact fun k hk => .inl hk
  | text s => exact List.forall_mem_singleton.mpr (.inr rfl)
  | @number value hvalue =>
    have hfinite : ∀ value ∈ numericDefaults, value.isFinite = true := by decide +kernel
    exact List.forall_mem_singleton.mpr (.inr (hfinite value hvalue))
  | _ => exact nofun

theorem constants_newBody? {body : List Instruction} (h : p.newBody? = some body) :
    ∀ j ∈ body, j.constants = [] := by
  cases p with
  | anyHost =>
    obtain rfl := Option.some.inj h
    simp [Instruction.constants]
  | anyCertificate =>
    obtain rfl := Option.some.inj h
    simp [Instruction.constants]
  | _ => cases h

/-- **The constants in a replacement** are those of the item, or finite. -/
theorem constants_of_finding {m : MethodInfo} {before : List Instruction}
    (h : (p.inspector m).finding? before i = some f) (hr : f.replacement = some r) :
    ∀ j ∈ r, ∀ k ∈ j.constants, k ∈ i.constants ∨ k.isFinite = true := by
  obtain ⟨-, hnone, -⟩ | ⟨body, hbody, -, hr', -⟩ | ⟨-, -, hf⟩ := finding_cases h
  · exact nomatch hr.symm.trans hnone
  · obtain rfl := Option.some.inj (hr.symm.trans hr')
    refine List.forall_mem_cons.mpr ⟨fun k hk => .inl hk, fun j hj k hk => ?_⟩
    rw [constants_newBody? hbody j hj] at hk
    cases hk
  · exact fun j hj => (hf.writes r hr j hj).constants

end Policy

/-! ### The class with a live site -/

variable {c : ClassFile} {policies : List Policy} {s : Site}

theorem Method.mem_instructions_of_withCode {m : Method} {code : List Instruction} {i : Instruction}
    (hi : i ∈ (m.withCode code).instructions) : i ∈ code := by
  obtain ⟨kept, -, hcode⟩ := m.exists_filter_withCode code
  rw [hcode] at hi
  exact (List.mem_filter.mp hi).1

theorem ClassFile.mem_constants {k : Constant} :
    k ∈ c.constants ↔ ∃ m ∈ c.methods, ∃ i ∈ m.instructions, k ∈ i.constants := by
  simp only [constants, List.mem_flatMap]

/-- A live site leaves constants of its method, and puts finite ones beside them. -/
theorem Site.constants_code (hs : s ∈ c.sitesOf policies) :
    ∀ j ∈ s.code, ∀ k ∈ j.constants,
      (∃ i ∈ s.place.method.instructions, k ∈ i.constants) ∨ k.isFinite = true := by
  obtain ⟨-, -, hplace, hf⟩ := ClassFile.mem_sitesOf.mp hs
  obtain ⟨-, hcode⟩ := ClassFile.mem_places.mp hplace
  have hwhole : ∀ j ∈ s.place.code.whole, j ∈ s.place.method.instructions := fun j hj => hcode ▸ hj
  intro j hj k hk
  cases hr : s.finding.replacement with
  | none =>
    rw [code_of_none hr] at hj
    exact .inl ⟨j, hwhole j hj, hk⟩
  | some r =>
    rw [code_of_some hr] at hj
    obtain hbefore | hj := List.mem_append.mp hj
    · exact .inl ⟨j, hwhole j (List.mem_append_left _ hbefore), hk⟩
    · obtain hreplacement | hafter := List.mem_append.mp hj
      · refine (Policy.constants_of_finding hf hr j hreplacement k hk).imp_left fun hitem => ?_
        exact ⟨_, hwhole _ (List.mem_append_right _ List.mem_cons_self), hitem⟩
      · have hstays : j ∈ s.place.code.after := by
          split at hafter
          · cases hafter
          · exact hafter
        exact .inl ⟨j, hwhole j (List.mem_append_right _ (List.mem_cons_of_mem _ hstays)), hk⟩

/-- **The infinite constants of a mutant** are constants of its class. -/
theorem Site.constants_mutate (hs : s ∈ c.sitesOf policies) :
    ∀ k ∈ (s.mutate c).constants, k ∈ c.constants ∨ k.isFinite = true := by
  obtain ⟨-, -, hplace, -⟩ := ClassFile.mem_sitesOf.mp hs
  obtain ⟨hmethods, -⟩ := ClassFile.mem_places.mp hplace
  have hwhole : ∀ m ∈ s.place.methods.whole, m ∈ c.methods := fun m hm => hmethods ▸ hm
  intro k hk
  obtain ⟨m, hm, i, hi, hk⟩ := ClassFile.mem_constants.mp hk
  obtain hbefore | hm := List.mem_append.mp hm
  · have hmem := hwhole m (List.mem_append_left _ hbefore)
    exact .inl (ClassFile.mem_constants.mpr ⟨m, hmem, i, hi, hk⟩)
  · obtain rfl | hafter := List.mem_cons.mp hm
    · have hmem := hwhole s.place.method (List.mem_append_right _ List.mem_cons_self)
      refine (constants_code hs i (Method.mem_instructions_of_withCode hi) k hk).imp_left ?_
      rintro ⟨i', hi', hk'⟩
      exact ClassFile.mem_constants.mpr ⟨_, hmem, i', hi', hk'⟩
    · have hmem := hwhole m (List.mem_append_right _ (List.mem_cons_of_mem _ hafter))
      exact .inl (ClassFile.mem_constants.mpr ⟨m, hmem, i, hi, hk⟩)

theorem constants_mutateClass {m : Mutation} (hm : m ∈ findMutations c policies) :
    ∀ k ∈ (mutateClass c policies (some m.id)).1.constants,
      k ∈ c.constants ∨ k.isFinite = true := by
  obtain ⟨n, s, hs, rfl⟩ := exists_site_of_mem hm
  obtain ⟨pass, hpass, -⟩ := mutateClass_id hs
  change ∀ k ∈ (mutateClass c policies (some (s.id (.ofClass c) n))).1.constants, _
  rw [hpass]
  exact Site.constants_mutate (List.mem_of_getElem? hs)

/-- **A mutant is readable** iff none of the infinite floats of its class is left in it. -/
theorem mutant_is_readable_iff {bytes : Bytes} {c : ClassFile}
    (hread : ClassFile.ofBytes? bytes = some c) (policies : List Policy) {m : Mutation}
    (hm : m ∈ findMutations c policies) :
    ∃ mutant, materialize c policies m.id = .ok mutant ∧
      ((ClassFile.ofBytes? mutant.artifact).isSome = true ↔
        ∀ x : Binary32, .float x ∈ c.constants → x.isInfinite = true →
          .float x ∉ (mutateClass c policies (some m.id)).1.constants) := by
  obtain ⟨diff, hmutant⟩ := materialize_of_mem hm
  refine ⟨_, hmutant, ?_⟩
  rw [ClassFile.isSome_ofBytes?_toBytes_iff]
  constructor
  · intro hfinite x _ hinfinite hx
    have hnot := hfinite _ hx
    simp [Constant.isFinite, hinfinite] at hnot
  · intro hgone k hk
    obtain hstays | hfinite := constants_mutateClass hm k hk
    · by_contra hnot
      have hinfinite := Bool.eq_false_iff.mpr hnot
      obtain ⟨x, rfl⟩ := ClassFile.float_of_ofBytes? hread hstays hinfinite
      exact hgone x hstays (by simpa [Constant.isFinite] using hinfinite) hk
    · exact hfinite

/-- A class that loads the largest numbers of both formats beside an address. -/
theorem mutant_with_largest_numbers_is_readable :
    let c : ClassFile := { ClassFile.empty "a/B" with
      methods := [.plain "m" "()V" publicFlag
        [.line 7 0, .load (.float ⟨true, binary32.infinity - 1, by decide⟩),
          .load (.double ⟨false, binary64.infinity - 1, by decide⟩), .loadText "https://a"]] }
    let m : Mutation := ⟨⟨"https_to_http", "a/B", "m()V", 0,
      "Changed 'https' to 'http' in String"⟩, 7, none⟩
    ClassFile.ofBytes? c.toBytes = some c ∧ m ∈ findMutations c Policy.defaults ∧
      ∃ mutant, materialize c Policy.defaults m.id = .ok mutant ∧
        (ClassFile.ofBytes? mutant.artifact).isSome = true := by
  intro c m
  have hread : ClassFile.ofBytes? c.toBytes = some c := by
    rw [ClassFile.ofBytes?_toBytes_eq_reread?]
    subst c m
    decide +kernel
  have hm : m ∈ findMutations c Policy.defaults := by
    subst m c
    decide +kernel
  have hfinite : c.IsFinite := by decide +kernel
  obtain ⟨mutant, hmutant, hreadable⟩ := mutant_is_readable_iff hread Policy.defaults hm
  refine ⟨hread, hm, mutant, hmutant, hreadable.mpr fun x hx hinfinite => ?_⟩
  have hnot := hfinite _ hx
  simp [Constant.isFinite, hinfinite] at hnot

/-- A class whose artifact has a float beyond the range of floats. The mutant of its address has no
literal in the place of the float. -/
theorem mutant_with_float_out_of_range_is_unreadable :
    let float : Json String := .object [("type", .string "float"),
      ("value", .number ⟨false, [1], none, some (false, [3, 9])⟩)]
    let method : Json String := .object [("name", .string "m"), ("descriptor", .string "()V"),
      ("access", .ofNat 1),
      ("instructions", .list [.object [("kind", .string "ldc"), ("value", float)],
        (Instruction.loadText "https://a").toJson]),
      ("max_stack", .ofNat 2), ("max_locals", .ofNat 1)]
    let bytes := Utf8.encode (Json.indented (.object [("name", .string "a/B"),
      ("access", .ofNat 1), ("methods", .list [method])]))
    let m : Mutation := ⟨⟨"https_to_http", "a/B", "m()V", 0,
      "Changed 'https' to 'http' in String"⟩, 0, none⟩
    ∃ c, ClassFile.ofBytes? bytes = some c ∧ m ∈ findMutations c Policy.defaults ∧
      ∃ mutant, materialize c Policy.defaults m.id = .ok mutant ∧
        ClassFile.ofBytes? mutant.artifact = none := by
  intro float method bytes m
  let c : ClassFile := ⟨"a/B", none, [], 1, none, [], [⟨"m", "()V", 1, [],
    [.load (.float (.infinite false)), .loadText "https://a"], [], [], 2, 1⟩]⟩
  have hread : ClassFile.ofBytes? bytes = some c := by
    rw [ClassFile.ofBytes?, Json.ofBytes?_indented (by decide +kernel), Option.bind_some]
    decide +kernel
  have hm : m ∈ findMutations c Policy.defaults := by
    subst m c
    decide +kernel
  obtain ⟨diff, hmutant⟩ := materialize_of_mem hm
  refine ⟨c, hread, hm, _, hmutant, Option.not_isSome_iff_eq_none.mp ?_⟩
  rw [ClassFile.isSome_ofBytes?_toBytes_iff]
  subst m c
  decide +kernel

end MutationTesting
