import MutationTesting.CommandLine.Execution
import MutationTesting.Proofs.Host.Watched
import MutationTesting.Proofs.Run.ArtifactPlaces
/-!
# Guards that are live together

Any number of artifacts of a directory may have a mutant in their place, and their guards may be
given up in any order. At any time every name stands for what it stood for in the beginning, but for
the artifacts whose guards are live and the names of the backups beside them.

A guard may be for any path that ends in the name of an artifact, also one that goes over links or
is spelled otherwise than in a list. All steps are done here; what becomes of one that breaks off is
said elsewhere.

## Main definitions

* `LiveGuard`, `GuardRun` — what is reached by calls of guards
* `LiveGuards.Holds` — the machine on which guards are live

## Main results

* `LiveGuards.Holds.install`, `LiveGuards.Holds.putBack` — what a call does
* `GuardRun.holds` — what calls do
-/

namespace MutationTesting

open FileSystem

/-! ### Calls -/

/-- A guard that is live, with the mutant that it has put in place. -/
structure LiveGuard where
  guard : ArtifactGuard
  mutant : Bytes
  deriving DecidableEq

/-- The guards that are live at some time. -/
abbrev LiveGuards := List LiveGuard

/-- What is reached from a machine by calls of guards for artifacts that were listed: the machine
and the guards that are live. No artifact is given another guard while it has one. -/
inductive GuardRun (artifacts : List Path) (m₀ : Machine) : Machine → LiveGuards → Prop where
  | start : GuardRun artifacts m₀ m₀ []
  | install {m m' : Machine} {live : LiveGuards} {path : Path} {mutant : Bytes} {g : ArtifactGuard}
      (run : GuardRun artifacts m₀ m live)
      (artifact : ∃ p ∈ artifacts, m₀.SameEnd p path)
      (free : ∀ l ∈ live, ¬ m₀.SameEnd l.guard.path path)
      (call : ArtifactGuard.install Machine.host path mutant m = (.ok g, m')) :
      GuardRun artifacts m₀ m' (⟨g, mutant⟩ :: live)
  | restore {m m' : Machine} {live : LiveGuards} {l : LiveGuard}
      (run : GuardRun artifacts m₀ m live) (mem : l ∈ live)
      (call : l.guard.restore Machine.host m = (.ok (), m')) :
      GuardRun artifacts m₀ m' (live.erase l)
  | drop {m m' : Machine} {live : LiveGuards} {l : LiveGuard}
      (run : GuardRun artifacts m₀ m live) (mem : l ∈ live)
      (call : l.guard.drop Machine.host m = ((), m')) :
      GuardRun artifacts m₀ m' (live.erase l)

/-- The steps of an installation that succeeds. -/
theorem ArtifactGuard.install_eq_ok {σ : Type} {host : Host σ} {path : Path} {mutant : Bytes}
    {s s' : σ} {g : ArtifactGuard} (h : install host path mutant s = (.ok g, s')) :
    ∃ saved s₁, host.read s path = some saved ∧
      host.write (backupPath path) saved s = (true, s₁) ∧
      host.replace path mutant s₁ = (none, s') ∧ g = ⟨path, backupPath path, saved⟩ := by
  rw [install, get_bind] at h
  cases hread : host.read s path with
  | none =>
    rw [hread] at h
    cases h
  | some saved =>
    rw [hread] at h
    rcases hwrite : host.write (backupPath path) saved s with ⟨written, s₁⟩
    dsimp only at h
    rw [bind_of_eq hwrite] at h
    cases written with
    | false => cases h
    | true =>
      rcases hreplace : host.replace path mutant s₁ with ⟨failed, s₂⟩
      rw [if_pos rfl, bind_of_eq hreplace] at h
      cases failed with
      | none =>
        cases h
        exact ⟨saved, s₁, rfl, hwrite, hreplace, rfl⟩
      | some failed => cases h

/-! ### The machine on which guards are live -/

/-- The name of the artifact of a guard. -/
def LiveGuard.slot (m₀ : Machine) (l : LiveGuard) : Slot := m₀.slot l.guard.path

/-- What is true of a guard for an artifact that was listed from when it was installed on. -/
structure LiveGuard.Guards (l : LiveGuard) (artifacts : List Path) (dir : Path) (m₀ : Machine) :
    Prop where
  listed : ∃ p ∈ artifacts, m₀.EndsIn p (l.slot m₀) ∧ m₀.Lists dir p (l.slot m₀)
  endsIn : m₀.EndsIn l.guard.path (l.slot m₀)
  backup : l.guard.backup = backupPath l.guard.path
  beside : m₀.EndsIn l.guard.backup (l.slot m₀).backup
  original : m₀.files.look (l.slot m₀) = some (.file l.guard.saved)
  fresh : m₀.files.look (l.slot m₀).backup = none

/-- The mutant is in its place, and the backup beside it. -/
structure LiveGuard.InPlace (l : LiveGuard) (slot : Slot) (fs : FileSystem) : Prop where
  mutant : fs.look slot = some (.file l.mutant)
  saved : fs.look slot.backup = some (.file l.guard.saved)
  owns : fs.Owns slot
  attached : fs.isAttached slot.1 = true

/-- The directories and links are those of the beginning, and so is what every name stands for, but
for the artifacts whose guards are live and their backups. -/
structure LiveGuards.Holds (artifacts : List Path) (dir : Path) (m₀ : Machine) (live : LiveGuards)
    (m : Machine) : Prop where
  home : m.home = m₀.home
  sound : m.files.IsSound
  ways : m₀.files.SameWays m.files
  issued : m₀.files.issued ≤ m.files.issued
  guards : ∀ l ∈ live, l.Guards artifacts dir m₀
  distinct : (live.map (·.slot m₀)).Nodup
  inPlace : ∀ l ∈ live, l.InPlace (l.slot m₀) m.files
  rest : ∀ slot, (∀ l ∈ live, slot ≠ l.slot m₀ ∧ slot ≠ (l.slot m₀).backup) →
    m.files.look slot = m₀.files.look slot

/-- A path ends in the name of an artifact that is listed and has no live guard. -/
structure LiveGuards.IsFree (live : LiveGuards) (artifacts : List Path) (dir : Path) (m₀ : Machine)
    (path : Path) (slot : Slot) : Prop where
  listed : ∃ p ∈ artifacts, m₀.EndsIn p slot ∧ m₀.Lists dir p slot
  endsIn : m₀.EndsIn path slot
  free : ∀ l ∈ live, l.slot m₀ ≠ slot

section

variable {artifacts : List Path} {dir p path : Path} {m₀ m m' : Machine} {live : LiveGuards}
  {l : LiveGuard} {slot other : Slot} {fs fs' : FileSystem} {content : Option Bytes}

theorem LiveGuard.Guards.isArtifact (h : l.Guards artifacts dir m₀) : (l.slot m₀).IsArtifact := by
  obtain ⟨p, -, -, hlists⟩ := h.listed
  exact hlists.isArtifact

/-- A change of another name leaves it in its place. -/
theorem LiveGuard.InPlace.turns (h : l.InPlace slot fs) (hsound : fs.IsSound)
    (hturns : fs.Turns fs' other content) (hne : slot ≠ other) (hbackup : slot.backup ≠ other) :
    l.InPlace slot fs' where
  mutant := by rw [hturns.look, Function.update_of_ne hne, h.mutant]
  saved := by rw [hturns.look, Function.update_of_ne hbackup, h.saved]
  owns := hturns.owns slot h.owns hne
  attached := by
    obtain ⟨k, -, hentry, -⟩ := h.owns
    exact hturns.isAttached hsound
      (isDirectory_of_mem_entries (hsound.mem_entries_iff.mpr hentry)) h.attached

namespace LiveGuards.Holds

theorem start (hsound : m₀.files.IsSound) : Holds artifacts dir m₀ [] m₀ where
  home := rfl
  sound := hsound
  ways := .refl _
  issued := Nat.le_refl _
  guards := nofun
  distinct := List.nodup_nil
  inPlace := nofun
  rest _ _ := rfl

variable (h : Holds artifacts dir m₀ live m)

include h

/-- A path ends where it ended. -/
theorem endsIn (hends : m₀.EndsIn path slot) : m.EndsIn path slot := by
  rw [Machine.EndsIn, h.home]
  exact h.ways.stands hends

theorem endsIn_iff : m.EndsIn path slot ↔ m₀.EndsIn path slot := by
  refine ⟨fun hends => ?_, h.endsIn⟩
  rw [Machine.EndsIn, h.home] at hends
  exact h.ways.symm.stands hends

theorem leadsTo_iff {k : Nat} :
    m.files.LeadsTo m.home path k ↔ m₀.files.LeadsTo m₀.home path k := by
  rw [h.home]
  exact ⟨h.ways.symm.leadsTo, h.ways.leadsTo⟩

theorem leadsToDirectory_eq (path : Path) :
    m.files.leadsToDirectory m.home path = m₀.files.leadsToDirectory m₀.home path := by
  rw [h.home, h.ways.leadsToDirectory_eq]

theorem opens_iff (hsound : m₀.files.IsSound) {depth : Nat} {above : Path} :
    m.files.Opens m.home depth path above ↔ m₀.files.Opens m₀.home depth path above := by
  rw [h.home]
  exact ⟨h.ways.symm.opens h.sound.toIsTree, h.ways.opens hsound.toIsTree⟩

/-- Guards with the same artifact are the same. -/
theorem eq_of_slot {k : LiveGuard} (hl : l ∈ live) (hk : k ∈ live)
    (heq : l.slot m₀ = k.slot m₀) : l = k :=
  List.inj_on_of_nodup_map h.distinct hl hk heq

/-- An artifact without a live guard is as it was in the beginning. -/
theorem look_free (hslot : slot.IsArtifact) (hfree : ∀ l ∈ live, l.slot m₀ ≠ slot) :
    m.files.look slot = m₀.files.look slot :=
  h.rest slot fun l hl => ⟨(hfree l hl).symm, ((h.guards l hl).isArtifact.backup_ne hslot).symm⟩

/-- So is what has the name of its backup. -/
theorem look_free_backup (hslot : slot.IsArtifact) (hfree : ∀ l ∈ live, l.slot m₀ ≠ slot) :
    m.files.look slot.backup = m₀.files.look slot.backup :=
  h.rest slot.backup fun l hl => ⟨hslot.backup_ne (h.guards l hl).isArtifact,
    fun heq => hfree l hl (hslot.backup_inj (h.guards l hl).isArtifact heq).symm⟩

/-- What is called for an artifact that is listed and has no live guard. -/
theorem exists_isFree (hsound₀ : m₀.files.IsSound)
    (hscan : scanArtifacts Machine.host m₀ dir = .ok artifacts)
    (hartifact : ∃ p ∈ artifacts, m₀.SameEnd p path)
    (hfree : ∀ l ∈ live, ¬ m₀.SameEnd l.guard.path path) :
    ∃ slot, live.IsFree artifacts dir m₀ path slot := by
  obtain ⟨p, hp, slot, hlisted, hends⟩ := hartifact
  obtain ⟨slot', hlists⟩ := (Machine.mem_scan_iff hsound₀.toIsTree hscan).mp hp
  obtain rfl := hlists.endsIn hsound₀.toIsTree hlisted
  exact ⟨slot, ⟨p, hp, hlisted, hlists⟩, hends, fun l hl heq =>
    hfree l hl ⟨slot, heq ▸ (h.guards l hl).endsIn, hends⟩⟩

/-- **A mutant takes the place of its artifact**, whose original is in the backup by then. -/
theorem hold {files files' : FileSystem} (hfree : ∀ k ∈ live, k.slot m₀ ≠ l.slot m₀)
    (hguards : l.Guards artifacts dir m₀) (hhome : m'.home = m.home)
    (hattached : m.files.isAttached (l.slot m₀).1 = true)
    (hturns : m.files.Turns files (l.slot m₀).backup (some l.guard.saved))
    (hturns' : files.Turns files' (l.slot m₀) (some l.mutant)) (hfiles : m'.files = files') :
    Holds artifacts dir m₀ (l :: live) m' := by
  subst hfiles
  have hslot := hguards.isArtifact
  have hdirectory := (h.endsIn hguards.endsIn).admits.directory
  refine {
    home := hhome.trans h.home
    sound := hturns'.sound
    ways := h.ways.trans (hturns.ways.trans hturns'.ways)
    issued := h.issued.trans (hturns.issued.trans hturns'.issued)
    guards := List.forall_mem_cons.mpr ⟨hguards, h.guards⟩
    distinct := ?distinct
    inPlace := List.forall_mem_cons.mpr ⟨?inPlace, fun k hk => ?others⟩
    rest := fun slot hother => ?rest }
  case distinct =>
    refine List.nodup_cons.mpr ⟨fun hmem => ?_, h.distinct⟩
    obtain ⟨k, hk, heq⟩ := List.mem_map.mp hmem
    exact hfree k hk heq
  case inPlace =>
    refine ⟨?_, ?_, hturns'.own rfl, ?_⟩
    · rw [hturns'.look, Function.update_self]
      rfl
    · rw [hturns'.look, Function.update_of_ne (hslot.backup_ne hslot), hturns.look,
        Function.update_self]
      rfl
    · exact hturns'.isAttached hturns.sound (hturns.ways.isDirectory hdirectory)
        (hturns.isAttached h.sound hdirectory hattached)
  case others =>
    have hslot' := (h.guards k hk).isArtifact
    have hbackups : (k.slot m₀).backup ≠ (l.slot m₀).backup := fun heq =>
      hfree k hk (hslot'.backup_inj hslot heq)
    exact ((h.inPlace k hk).turns h.sound hturns (hslot.backup_ne hslot').symm hbackups).turns
      hturns.sound hturns' (hfree k hk) (hslot'.backup_ne hslot)
  case rest =>
    obtain ⟨⟨hpath, hbackup⟩, hrest⟩ := List.forall_mem_cons.mp hother
    rw [hturns'.look, Function.update_of_ne hpath, hturns.look, Function.update_of_ne hbackup,
      h.rest slot hrest]

/-- **A mutant is put in place** if nothing is in the place of the backup and a path leads there. -/
theorem install_of_endsIn {saved : Bytes} (hfree : live.IsFree artifacts dir m₀ path slot)
    (horiginal : m₀.files.look slot = some (.file saved))
    (hfresh : m₀.files.look slot.backup = none)
    (hbeside : m.EndsIn (backupPath path) slot.backup)
    (hattached : m.files.isAttached slot.1 = true) (mutant : Bytes) :
    ∃ m', ArtifactGuard.install Machine.host path mutant m =
        (.ok ⟨path, backupPath path, saved⟩, m') ∧
      Holds artifacts dir m₀ (⟨⟨path, backupPath path, saved⟩, mutant⟩ :: live) m' := by
  obtain ⟨hlisted, hends₀, hslots⟩ := hfree
  have hslot : slot.IsArtifact := by
    obtain ⟨p, -, -, hlists⟩ := hlisted
    exact hlists.isArtifact
  have hends := h.endsIn hends₀
  have hlook := (h.look_free hslot hslots).trans horiginal
  have hread := Machine.read_of_stands hends hlook
  -- the backup is a new file beside the artifact
  obtain ⟨files₁, hwrite, hturns₁⟩ : ∃ files₁, Machine.host.write (backupPath path) saved m =
      (true, m.withFiles files₁) ∧ m.files.Turns files₁ slot.backup (some saved) :=
    Machine.write_of_stands h.sound hbeside hslot.isName_backup
      ((h.look_free_backup hslot hslots).trans hfresh) hattached saved
  -- the mutant takes the place of the artifact
  have hends₁ : (m.withFiles files₁).EndsIn path slot := hturns₁.ways.stands hends
  have hlook₁ : files₁.look slot = some (.file saved) := by
    rw [hturns₁.look, Function.update_of_ne (hslot.backup_ne hslot).symm, hlook]
  obtain ⟨files₂, hreplace, hturns₂⟩ : ∃ files₂, Machine.host.replace path mutant
      (m.withFiles files₁) = (none, (m.withFiles files₁).withFiles files₂) ∧
        files₁.Turns files₂ slot (some mutant) :=
    hends₁.replace hturns₁.sound hslot (hturns₁.ways.stands hbeside) hlook₁
      (hturns₁.isAttached h.sound hends.admits.directory hattached) mutant
  let l : LiveGuard := ⟨⟨path, backupPath path, saved⟩, mutant⟩
  obtain rfl : l.slot m₀ = slot := hends₀.slot_eq
  have hguards : l.Guards artifacts dir m₀ :=
    ⟨hlisted, hends₀, rfl, h.endsIn_iff.mp hbeside, horiginal, hfresh⟩
  refine ⟨(m.withFiles files₁).withFiles files₂, ?_,
    h.hold hslots hguards rfl hattached hturns₁ hturns₂ rfl⟩
  rw [ArtifactGuard.install, get_bind, hread]
  dsimp only
  rw [bind_of_eq hwrite, if_pos rfl, bind_of_eq hreplace]
  rfl

/-- **An installation that succeeds** has put its mutant in place. -/
theorem install {g : ArtifactGuard} {mutant : Bytes} (hsound₀ : m₀.files.IsSound)
    (hclean : interruptedRuns Machine.host m₀ dir = [])
    (hfree : live.IsFree artifacts dir m₀ path slot)
    (hcall : ArtifactGuard.install Machine.host path mutant m = (.ok g, m')) :
    Holds artifacts dir m₀ (⟨g, mutant⟩ :: live) m' := by
  obtain ⟨saved, m₁, hread, hwrite, -, -⟩ := ArtifactGuard.install_eq_ok hcall
  obtain ⟨p, -, hlisted, hlists⟩ := hfree.listed
  have hslot := hlists.isArtifact
  have hbeside := (h.endsIn hfree.endsIn).beside hslot hwrite
  have hfresh : m₀.files.look slot.backup = none := by
    refine (hlists.look_backup hsound₀.toIsTree hclean hlisted).resolve_right fun henters => ?_
    obtain ⟨files, hfiles, -⟩ := Machine.exists_of_write hwrite
    exact (h.ways.enters henters).write_ne_ok hbeside saved Machine.fileMode hfiles
  have hattached := Machine.isAttached_of_write hbeside
    ((h.look_free_backup hslot hfree.free).trans hfresh) hwrite
  obtain ⟨original, horiginal⟩ := hlists.content
  obtain ⟨m₂, hcall', hholds⟩ :=
    h.install_of_endsIn hfree horiginal hfresh hbeside hattached mutant
  obtain ⟨hg, rfl⟩ := Prod.mk.inj (hcall.symm.trans hcall')
  obtain rfl := Except.ok.inj hg
  exact hholds

/-- An artifact without a live guard can be given one if there is room for its backup. -/
theorem exists_install (hsound₀ : m₀.files.IsSound)
    (hfree : live.IsFree artifacts dir m₀ path slot) (hroom : m₀.HasRoom path) (mutant : Bytes) :
    ∃ saved m', m₀.files.look slot = some (.file saved) ∧
      ArtifactGuard.install Machine.host path mutant m =
        (.ok ⟨path, backupPath path, saved⟩, m') := by
  obtain ⟨p, -, -, hlists⟩ := hfree.listed
  obtain ⟨hpath, hshort, hattached₀, hfresh⟩ := hroom
  rw [hfree.endsIn.slot_eq] at hshort hattached₀ hfresh
  have hslot := hlists.isArtifact
  have hends := h.endsIn hfree.endsIn
  have hname := Stands.fileName? hends
  have hbeside : m.EndsIn (backupPath path) slot.backup := by
    refine hends.sibling hpath (Machine.meansDirectory_backupPath hslot hname)
      ⟨hends.admits.directory, hshort, (Path.isName_iff.mp hslot.isName_backup).2.2.1⟩ ?_
    rw [Machine.backupPath_of_fileName hname,
      Path.steps_withFileName (by rw [hname]; exact nofun) hslot.isName_backup]
  have hattached : m.files.isAttached slot.1 = true :=
    h.ways.isAttached hsound₀.toIsTree h.sound.toIsTree h.issued hfree.endsIn.admits.directory
      hattached₀
  obtain ⟨saved, hsaved⟩ := hlists.content
  obtain ⟨m', hcall, -⟩ := h.install_of_endsIn hfree hsaved hfresh hbeside hattached mutant
  exact ⟨saved, m', hsaved, hcall⟩

/-- **An artifact is put back** by giving it its original and removing its backup. -/
theorem release {files files' : FileSystem} (hl : l ∈ live) (hhome : m'.home = m.home)
    (hturns : m.files.Turns files (l.slot m₀) (some l.guard.saved))
    (hturns' : files.Turns files' (l.slot m₀).backup none) (hfiles : m'.files = files') :
    Holds artifacts dir m₀ (live.erase l) m' := by
  subst hfiles
  have hnodup : live.Nodup := .of_map _ h.distinct
  have hother : ∀ k ∈ live.erase l, k ∈ live ∧ k.slot m₀ ≠ l.slot m₀ := by
    intro k hk
    obtain ⟨hne, hk⟩ := hnodup.mem_erase_iff.mp hk
    exact ⟨hk, fun heq => hne (h.eq_of_slot hk hl heq)⟩
  refine {
    home := hhome.trans h.home
    sound := hturns'.sound
    ways := h.ways.trans (hturns.ways.trans hturns'.ways)
    issued := h.issued.trans (hturns.issued.trans hturns'.issued)
    guards := fun k hk => h.guards k (hother k hk).1
    distinct := h.distinct.sublist (List.erase_sublist.map _)
    inPlace := fun k hk => ?inPlace
    rest := fun slot hslot => ?rest }
  case inPlace =>
    obtain ⟨hk, hne⟩ := hother k hk
    have hartifact := (h.guards l hl).isArtifact
    have hartifact' := (h.guards k hk).isArtifact
    have hbackups : (k.slot m₀).backup ≠ (l.slot m₀).backup := fun heq =>
      hne (hartifact'.backup_inj hartifact heq)
    exact ((h.inPlace k hk).turns h.sound hturns hne (hartifact'.backup_ne hartifact)).turns
      hturns.sound hturns' (hartifact.backup_ne hartifact').symm hbackups
  case rest =>
    rw [hturns'.look]
    by_cases hbackup : slot = (l.slot m₀).backup
    · rw [hbackup, Function.update_self, (h.guards l hl).fresh]
      rfl
    · rw [Function.update_of_ne hbackup, hturns.look]
      by_cases hpath : slot = l.slot m₀
      · rw [hpath, Function.update_self, (h.guards l hl).original]
        rfl
      · rw [Function.update_of_ne hpath]
        refine h.rest slot fun k hk => ?_
        by_cases hkl : k = l
        · rw [hkl]
          exact ⟨hpath, hbackup⟩
        · exact hslot k (hnodup.mem_erase_iff.mpr ⟨hkl, hk⟩)

/-- The backup of an artifact that has its original again can be removed. -/
theorem removeBackup {files : FileSystem} (hl : l ∈ live)
    (hturns : m.files.Turns files (l.slot m₀) (some l.guard.saved))
    (hback : m.EndsIn path (l.slot m₀).backup) :
    ∃ m', Machine.host.remove path (m.withFiles files) = (true, m') ∧
      Holds artifacts dir m₀ (live.erase l) m' := by
  have hslot := (h.guards l hl).isArtifact
  have hsaved : files.look (l.slot m₀).backup = some (.file l.guard.saved) := by
    rw [hturns.look, Function.update_of_ne (hslot.backup_ne hslot), (h.inPlace l hl).saved]
  have hback' : (m.withFiles files).EndsIn path (l.slot m₀).backup := hturns.ways.stands hback
  obtain ⟨files', hremove, hturns'⟩ := Machine.remove_of_stands (m := m.withFiles files)
    hturns.sound hback' hslot.isName_backup hsaved
  exact ⟨_, hremove, h.release hl rfl hturns hturns' rfl⟩

/-- What is done when a guard is given up. -/
theorem putBack (hl : l ∈ live) : ∃ m', l.guard.putBack Machine.host m = (.ok (), m') ∧
    Holds artifacts dir m₀ (live.erase l) m' := by
  have hguards := h.guards l hl
  have hplace := h.inPlace l hl
  have hbeside := h.endsIn hguards.beside
  obtain ⟨files, hreplace, hturns⟩ := (h.endsIn hguards.endsIn).replace h.sound hguards.isArtifact
    (hguards.backup ▸ hbeside) hplace.mutant hplace.attached l.guard.saved
  obtain ⟨m', hremove, hholds⟩ := h.removeBackup hl hturns hbeside
  refine ⟨m', ?_, hholds⟩
  rw [ArtifactGuard.putBack, bind_of_eq hreplace]
  exact bind_of_eq hremove

end LiveGuards.Holds

/-- **What calls do.** -/
theorem GuardRun.holds (hsound : m₀.files.IsSound)
    (hscan : scanArtifacts Machine.host m₀ dir = .ok artifacts)
    (hclean : interruptedRuns Machine.host m₀ dir = []) (run : GuardRun artifacts m₀ m live) :
    live.Holds artifacts dir m₀ m := by
  induction run with
  | start => exact .start hsound
  | install run artifact free call ih =>
    obtain ⟨slot, hfree⟩ := ih.exists_isFree hsound hscan artifact free
    exact ih.install hsound hclean hfree call
  | restore run mem call ih =>
    obtain ⟨m', hput, hholds⟩ := ih.putBack mem
    rw [ArtifactGuard.restore, bind_of_eq hput] at call
    exact (Prod.mk.inj call).2 ▸ hholds
  | drop run mem call ih =>
    obtain ⟨m', hput, hholds⟩ := ih.putBack mem
    rw [ArtifactGuard.drop, bind_of_eq hput] at call
    exact (Prod.mk.inj call).2 ▸ hholds

section

variable (hsound : m₀.files.IsSound) (hscan : scanArtifacts Machine.host m₀ dir = .ok artifacts)
  (hclean : interruptedRuns Machine.host m₀ dir = []) (run : GuardRun artifacts m₀ m live)

include hsound hscan hclean run

/-- A run goes on with another guard if there is room for it. -/
theorem GuardRun.exists_install (hp : p ∈ artifacts) (hends : m₀.EndsIn p slot)
    (hfree : ∀ l ∈ live, ¬ m₀.SameEnd l.guard.path p) (hroom : m₀.HasRoom p) {saved : Bytes}
    (hsaved : m₀.files.look slot = some (.file saved)) (mutant : Bytes) :
    ∃ m', GuardRun artifacts m₀ m' (⟨⟨p, backupPath p, saved⟩, mutant⟩ :: live) := by
  have h := run.holds hsound hscan hclean
  have hartifact : ∃ q ∈ artifacts, m₀.SameEnd q p := ⟨p, hp, slot, hends, hends⟩
  obtain ⟨slot', hisFree⟩ := h.exists_isFree hsound hscan hartifact hfree
  obtain rfl := hisFree.endsIn.unique hends
  obtain ⟨saved', m', hsaved', hcall⟩ := h.exists_install hsound hisFree hroom mutant
  obtain rfl := Seen.file.inj (Option.some.inj (hsaved.symm.trans hsaved'))
  exact ⟨m', .install run hartifact hfree hcall⟩

/-- A run goes on with a guard that is given up. -/
theorem GuardRun.exists_restore (hl : l ∈ live) : ∃ m', GuardRun artifacts m₀ m' (live.erase l) := by
  obtain ⟨m', hput, -⟩ := (run.holds hsound hscan hclean).putBack hl
  refine ⟨m', .restore run hl ?_⟩
  rw [ArtifactGuard.restore, bind_of_eq hput]
  rfl

end

end

end MutationTesting
