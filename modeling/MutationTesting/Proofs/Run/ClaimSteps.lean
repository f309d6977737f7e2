import MutationTesting.Proofs.Host.Files
import MutationTesting.Proofs.Run.Concurrency
/-!
# The steps of a claim

A machine grants or refuses a claim at once; a process opens the file, locks it, empties it and
writes into it, and others may do something between these steps. If nobody does, the two are the
same: the answer, the files below the directory and who has what locked.

A disk is compared with a machine below one directory, links not followed.

## Main definitions

* `Machine.Mirrors` — a disk has the files of a machine
* `Machine.CanClaim` — the file of a claim can be opened
* `RunState.Claims` — how far a process is with its claim

## Main results

* `RunState.Claims.step` — what a step does to a claim
* `claim_of_alone` — undisturbed steps do what the machine does
* `exists_alone_claim` — there are such steps
-/

namespace MutationTesting

open FileSystem

/-! ### Machines and disks -/

namespace Machine

/-- The files below a directory of the machine are those of the disk below its path. -/
def Mirrors (m : Machine) (dir : Path) (n : Nat) (d : Disk) : Prop :=
  ∀ (way : List Octets) (name : Octets) (content : Bytes),
    d.lookup (dir.steps ++ (way ++ [name]).map .name) = some content ↔
      ∃ k, m.files.Descends n way k ∧ m.files.look (k, name) = some (.file content)

/-- The file of a claim is in a directory, or can be made there. -/
structure CanClaim (m : Machine) (dir : Path) (n : Nat) : Prop where
  sound : m.files.IsSound
  locks : m.LocksInOrder
  stands : m.files.Stands m.home (Path.join dir claimFile.toList) n claimFile.toList
  attached : m.files.isAttached n = true
  file : m.files.look (n, claimFile.toList) = none ∨ m.files.Owns (n, claimFile.toList)

variable {m m' : Machine} {dir : Path} {n k : Nat} {d : Disk} {way : List Octets} {name : Octets}
  {content : Bytes}

/-- A file that is written on both sides. -/
theorem Mirrors.turns (h : m.Mirrors dir n d) (hsound : m.files.IsSound)
    (hway : m.files.Descends n way k)
    (hturns : m.files.Turns m'.files (k, name) (some content)) :
    m'.Mirrors dir n (AList.insert (dir.steps ++ (way ++ [name]).map .name) content d) := by
  intro way' name' content'
  have hdescends : ∀ j, m'.files.Descends n way' j ↔ m.files.Descends n way' j := fun j =>
    ⟨hturns.ways.symm.descends, hturns.ways.descends⟩
  simp only [hdescends, hturns.look]
  by_cases heq : way' ++ [name'] = way ++ [name]
  · obtain ⟨rfl, hname⟩ := List.append_inj' heq rfl
    obtain rfl := (List.cons.inj hname).1
    rw [AList.lookup_insert]
    constructor
    · intro hcontent
      exact ⟨k, hway, by rw [Function.update_self, ← Option.some.inj hcontent]; rfl⟩
    · rintro ⟨j, hj, hlook⟩
      obtain rfl := hj.unique hway
      rw [Function.update_self] at hlook
      rw [Seen.file.inj (Option.some.inj hlook)]
  · have hplace : dir.steps ++ (way' ++ [name']).map .name ≠
        dir.steps ++ (way ++ [name]).map .name := fun hplace =>
      heq (List.map_injective_iff.mpr (fun _ _ => Path.Component.name.inj)
        (List.append_cancel_left hplace))
    rw [AList.lookup_insert_ne hplace, h way' name' content']
    refine exists_congr fun j => and_congr_right fun hj => ?_
    have hslot : (j, name') ≠ (k, name) := by
      rintro hslot
      obtain ⟨rfl, rfl⟩ := Prod.mk.inj hslot
      exact heq (by rw [hsound.descends_inj hj hway])
    rw [Function.update_of_ne hslot]

/-- A file of a claim that is there is on the disk, too. -/
theorem Mirrors.mem_of_owns (h : m.Mirrors dir n d)
    (howns : m.files.Owns (n, claimFile.toList)) : claimLocation dir ∈ d := by
  obtain ⟨k, content, hentry, hform, -⟩ := howns
  have hlookup := (h [] claimFile.toList content).mpr
    ⟨n, .here, look_eq_file_iff.mpr ⟨k, hentry, hform⟩⟩
  exact AList.lookup_isSome.mp (Option.isSome_iff_exists.mpr ⟨content, hlookup⟩)

/-- A file that is locked is there. -/
theorem CanClaim.owns_of_isLocked (h : m.CanClaim dir n)
    (hlocked : m.IsLocked (n, claimFile.toList)) : m.files.Owns (n, claimFile.toList) := by
  obtain ⟨k, hentry, -⟩ := hlocked
  refine h.file.resolve_left fun hlook => ?_
  cases (look_eq_none_iff.mp hlook).symm.trans hentry

theorem CanClaim.claim_of_isLocked (h : m.CanClaim dir n)
    (hlocked : m.IsLocked (n, claimFile.toList)) (text : String) :
    host.claim (Path.join dir claimFile.toList) text m = (.busy, m) :=
  claim_of_locked h.locks h.stands (h.owns_of_isLocked hlocked) hlocked text

theorem CanClaim.exists_claim (h : m.CanClaim dir n)
    (hfree : ¬ m.IsLocked (n, claimFile.toList)) (text : String) :
    ∃ m', host.claim (Path.join dir claimFile.toList) text m = (.granted m.claimed, m') ∧
      m.files.Turns m'.files (n, claimFile.toList) (some (Utf8.encode text)) ∧
      m'.IsLocked (n, claimFile.toList) :=
  claim_of_not_locked h.sound h.locks h.stands (by decide) h.attached h.file hfree text

end Machine

/-! ### How far a process is with its claim -/

/-- The disk on which a file was opened, and made if it was not there. -/
def Disk.opened (d : Disk) (file : Location) : Disk :=
  if file ∈ d then d else AList.insert file [] d

/-- How far a process is with a claim that it begins on a disk: where it stands now, and what the
disk is then. `taken` says whether somebody else has the file locked. -/
inductive RunState.Claims (d : Disk) (taken : Prop) (path : Path) (text : String)
    (answer : ClaimResult) (turns : List Turn) : RunState → Disk → Prop
  | waiting {v w : View} : Claims d taken path text answer turns
      ⟨⟨w, .claim path text, answer⟩ :: turns, v, .free⟩ d
  | opened {v w : View} : Claims d taken path text answer turns
      ⟨⟨w, .claim path text, answer⟩ :: turns, v, .claiming .opened path.steps⟩
      (d.opened path.steps)
  | locked {v w : View} (free : ¬ taken) : Claims d taken path text answer turns
      ⟨⟨w, .claim path text, answer⟩ :: turns, v, .claiming .locked path.steps⟩
      (d.opened path.steps)
  | emptied {v w : View} (free : ¬ taken) : Claims d taken path text answer turns
      ⟨⟨w, .claim path text, answer⟩ :: turns, v, .claiming .emptied path.steps⟩
      (AList.insert path.steps [] d)
  | granted {v : View} {n : Nat} (free : ¬ taken) (isGranted : answer = .granted n) :
      Claims d taken path text answer turns ⟨turns, v, .granted path.steps n⟩
        (AList.insert path.steps (Utf8.encode text) d)
  | refused {v : View} (isTaken : taken) (isRefused : answer = .busy) :
      Claims d taken path text answer turns ⟨turns, v, .free⟩ (d.opened path.steps)
  /-- The claim is done with, and so is what comes next, or it is being done. -/
  | past {state : RunState} {d' : Disk}
      (later : state.turns.length < turns.length ∨
        state.turns.length ≤ turns.length ∧ state.stage.isSettled = false) :
      Claims d taken path text answer turns state d'

namespace RunState

variable {d d₁ d₂ : Disk} {taken : Prop} {others : Location → Prop} {path : Path} {text : String}
  {answer : ClaimResult} {turns : List Turn} {state state' : RunState} {move : Move}

theorem insert_opened (d : Disk) (file : Location) (content : Bytes) :
    AList.insert file content (d.opened file) = AList.insert file content d := by
  rw [Disk.opened]
  split
  · rfl
  · exact AList.insert_insert ..

/-- What comes after a claim does not bring it back. -/
theorem length_lt_of_step (h : Step d₁ others state move state' d₂) (hmove : move.succeeds = true)
    (later : state.turns.length < turns.length ∨
      state.turns.length ≤ turns.length ∧ state.stage.isSettled = false) :
    state'.turns.length < turns.length ∨
      state'.turns.length ≤ turns.length ∧ state'.stage.isSettled = false := by
  have hle : state.turns.length ≤ turns.length := later.elim Nat.le_of_lt And.left
  cases h with
  | looked => exact later
  | opened | locked | emptied | left => exact .inr ⟨hle, rfl⟩
  | refused | filled | acted | unlocked => exact .inl hle
  | notOpened | failed | died => cases hmove

/-- **What a step does to a claim**, if the process succeeds. -/
theorem Claims.step (h : Claims d taken path text answer turns state d₁)
    (hstep : Step d₁ others state move state' d₂) (hmove : move.succeeds = true)
    (htaken : state.stage.locked? = none → (others path.steps ↔ taken)) :
    Claims d taken path text answer turns state' d₂ := by
  cases h with
  | waiting =>
    cases hstep with
    | looked => exact .waiting
    | opened => exact .opened
    | notOpened => cases hmove
    | acted settled does => cases does
    | died => cases hmove
  | opened =>
    cases hstep with
    | looked => exact .opened
    | locked untaken => exact .locked (mt (htaken rfl).mpr untaken)
    | refused isTaken => exact .refused ((htaken rfl).mp isTaken) rfl
    | failed => cases hmove
    | acted settled => cases settled
    | died => cases hmove
  | locked free =>
    cases hstep with
    | looked => exact .locked free
    | emptied =>
      rw [insert_opened]
      exact .emptied free
    | failed => cases hmove
    | acted settled => cases settled
    | died => cases hmove
  | emptied free =>
    cases hstep with
    | looked => exact .emptied free
    | filled =>
      rw [AList.insert_insert]
      exact .granted free rfl
    | failed => cases hmove
    | acted settled => cases settled
    | died => cases hmove
  | granted free isGranted =>
    cases hstep with
    | looked => exact .granted free isGranted
    | acted => exact .past (.inl (Nat.lt_succ_self _))
    | left => exact .past (.inr ⟨le_rfl, rfl⟩)
    | died => cases hmove
  | refused isTaken isRefused =>
    cases hstep with
    | looked => exact .refused isTaken isRefused
    | opened => exact .past (.inr ⟨le_rfl, rfl⟩)
    | notOpened => cases hmove
    | acted => exact .past (.inl (Nat.lt_succ_self _))
    | died => cases hmove
  | past later => exact .past (length_lt_of_step hstep hmove later)

/-- A process that has done what a claim asks for, and nothing else yet. -/
theorem Claims.cases_of_settled (h : Claims d taken path text answer turns state d₁)
    (hturns : state.turns = turns) (hsettled : state.stage.isSettled = true) :
    (answer = .busy ∧ taken ∧ state.stage = .free ∧ d₁ = d.opened path.steps) ∨
      ∃ n, answer = .granted n ∧ ¬ taken ∧ state.stage = .granted path.steps n ∧
        d₁ = AList.insert path.steps (Utf8.encode text) d := by
  cases h with
  | waiting => exact absurd hturns (List.cons_ne_self _ _)
  | opened | locked | emptied => cases hsettled
  | granted free isGranted => exact .inr ⟨_, isGranted, free, rfl, rfl⟩
  | refused isTaken isRefused => exact .inl ⟨isRefused, isTaken, rfl, rfl⟩
  | past later =>
    obtain hlt | ⟨-, hbusy⟩ := later
    · rw [hturns] at hlt
      exact absurd hlt (lt_irrefl _)
    · exact absurd (hbusy.symm.trans hsettled) Bool.false_ne_true

end RunState

/-! ### Undisturbed claims -/

section

variable {ι : Type} [DecidableEq ι] {s s' : Sessions ι} {p : ι} {turns : List Turn} {v : View}
  {path : Path} {text : String} {answer : ClaimResult}

/-- A process that is alone is somewhere in its claim, and the others stay where they are. -/
theorem Sessions.Alone.claims
    (hstate : s.states p = ⟨⟨v, .claim path text, answer⟩ :: turns, v, .free⟩)
    (h : s.Alone p s') : (∀ q, q ≠ p → s'.states q = s.states q) ∧
      RunState.Claims s.disk (∃ q, s.Holds q path.steps) path text answer turns (s'.states p)
        s'.disk := by
  induction h with
  | refl =>
    rw [hstate]
    exact ⟨fun _ _ => rfl, .waiting⟩
  | @tail s₁ s₂ _ hstep ih =>
    obtain ⟨hothers, hclaims⟩ := ih
    obtain ⟨move, hmove, state', d', hstep, rfl⟩ := hstep
    refine ⟨fun q hq => (Function.update_of_ne hq ..).trans (hothers q hq), ?_⟩
    simp only [Function.update_self]
    -- until it has locked the file itself, the file is locked as it was in the beginning
    refine hclaims.step hstep hmove fun hunlocked => exists_congr fun q => ?_
    by_cases hq : q = p
    · subst hq
      rw [Sessions.Holds, Sessions.Holds, hunlocked, hstate]
      rfl
    · rw [Sessions.Holds, Sessions.Holds, hothers q hq]

/-- **Undisturbed steps do what the machine does.** A process that takes the steps of its claim
while no other one takes any, and has come to their end, has the answer of a machine on which the
same files are and the file of the claim is locked alike; and so it is afterwards. -/
theorem claim_of_alone {m : Machine} {dir : Path} {n : Nat} (hm : m.CanClaim dir n)
    (hmirrors : m.Mirrors dir n s.disk)
    (hlocked : (∃ q, s.Holds q (claimLocation dir)) ↔ m.IsLocked (n, claimFile.toList))
    (hstate : s.states p =
      ⟨⟨v, .claim (Path.join dir claimFile.toList) text, answer⟩ :: turns, v, .free⟩)
    (halone : s.Alone p s') (hturns : (s'.states p).turns = turns)
    (hsettled : (s'.states p).stage.isSettled = true) :
    ∃ result m', Machine.host.claim (Path.join dir claimFile.toList) text m = (result, m') ∧
      (answer = .busy ∧ result = .busy ∨
        ∃ number, answer = .granted number ∧ result = .granted m.claimed) ∧
      m'.Mirrors dir n s'.disk ∧
      ((∃ q, s'.Holds q (claimLocation dir)) ↔ m'.IsLocked (n, claimFile.toList)) := by
  obtain ⟨hothers, hclaims⟩ := halone.claims hstate
  have hfree : ¬ s.Holds p (claimLocation dir) := by
    rw [Sessions.Holds, hstate]
    intro hholds
    cases hholds
  obtain ⟨hbusy, htaken, hstage, hdisk⟩ | ⟨number, hgranted, huntaken, hstage, hdisk⟩ :=
    hclaims.cases_of_settled hturns hsettled
  · rw [steps_claimPath] at htaken hdisk
    have hmlocked := hlocked.mp htaken
    refine ⟨_, m, hm.claim_of_isLocked hmlocked text, .inl ⟨hbusy, rfl⟩, ?_, ?_⟩
    · rw [hdisk, Disk.opened, if_pos (hmirrors.mem_of_owns (hm.owns_of_isLocked hmlocked))]
      exact hmirrors
    · refine iff_of_true ?_ hmlocked
      obtain ⟨q, hq⟩ := htaken
      have hqp : q ≠ p := by
        rintro rfl
        exact hfree hq
      exact ⟨q, by rwa [Sessions.Holds, hothers q hqp]⟩
  · rw [steps_claimPath] at huntaken hdisk hstage
    obtain ⟨m', hclaim, hturned, hmlocked⟩ := hm.exists_claim (mt hlocked.mpr huntaken) text
    refine ⟨_, m', hclaim, .inr ⟨number, hgranted, rfl⟩, ?_, iff_of_true ⟨p, ?_⟩ hmlocked⟩
    · rw [hdisk]
      exact hmirrors.turns hm.sound .here hturned
    · rw [Sessions.Holds, hstage]
      rfl

/-- **There are such steps**, whatever the machine answers. -/
theorem exists_alone_claim {m : Machine} {dir : Path} {n : Nat} (hm : m.CanClaim dir n)
    (hlocked : (∃ q, s.Holds q (claimLocation dir)) ↔ m.IsLocked (n, claimFile.toList))
    (hstate : s.states p = ⟨⟨v, .claim (Path.join dir claimFile.toList) text,
      (Machine.host.claim (Path.join dir claimFile.toList) text m).1⟩ :: turns, v, .free⟩) :
    ∃ s', s.Alone p s' ∧ (s'.states p).turns = turns ∧ (s'.states p).stage.isSettled = true := by
  rw [← steps_claimPath] at hlocked
  by_cases htaken : ∃ q, s.Holds q (Path.join dir claimFile.toList).steps
  · rw [hm.claim_of_isLocked (hlocked.mp htaken) text] at hstate
    obtain ⟨s', halone, hstate'⟩ := Sessions.exists_refused hstate htaken
    exact ⟨s', halone, by rw [hstate'], by rw [hstate']; rfl⟩
  · obtain ⟨m', hclaim, -⟩ := hm.exists_claim (mt hlocked.mpr htaken) text
    rw [hclaim] at hstate
    obtain ⟨s', halone, hstate', -⟩ := Sessions.exists_granted hstate fun q hq => htaken ⟨q, hq⟩
    exact ⟨s', halone, by rw [hstate'], by rw [hstate']; rfl⟩

end

end MutationTesting
