import Mathlib.Tactic.SplitIfs

/-!
The build of a package. It is staged in a candidate directory beside the destination,
and swapped in at the end, with what was at the destination moved aside meanwhile. An
operation on files succeeds, or throws and has done nothing; whatever else a phase
does may only throw. What a build promises of the destination and of the siblings that
it makes, and when it keeps this, is `build_keeps_iff`.
-/
namespace Gargantuan
open List Option

inductive PackagePhase where
  | snapshot | validate | stageRuntime | stageContent | hashManifest | finalize | complete
deriving DecidableEq

abbrev PackageFile := String × List UInt8

inductive PackageWork where
  | isCancelled | check | write (file : PackageFile)
deriving DecidableEq

/-- What may throw in a build. -/
inductive PackageOperation where
  | isCancelled (phase : PackagePhase)
  | progress (phase : PackagePhase)
  | work (phase : PackagePhase) (index : Nat) (work : PackageWork)
  | createCandidate | validateCandidate | destinationExists | moveAside | swap | removeBackup
  | destinationStillExists | removeCandidate | isCancelledAtLast
deriving DecidableEq

/-- A directory, and whether the build has made it. -/
structure PackageDirectory where
  built : Bool
  files : List PackageFile
deriving DecidableEq

structure PackageSiblings where
  destination : Option PackageDirectory
  candidate : Option PackageDirectory := none
  backup : Option PackageDirectory := none
deriving DecidableEq

def PackageSiblings.effect (s : PackageSiblings) : PackageOperation → PackageSiblings
  | .work _ _ (.write file) => { s with candidate := s.candidate.map fun d => { d with files := d.files ++ [file] } }
  | .createCandidate => { s with candidate := some ⟨true,[]⟩ }
  | .moveAside => { s with destination := none, backup := s.destination }
  | .swap => { s with destination := s.candidate, candidate := none }
  | .removeBackup => { s with backup := none }
  | _ => s

structure PackageBuildResult where
  ok : Bool
  cancelled : Bool
  code : String
  message : String
deriving DecidableEq

/-- What a build is asked for: the files of the player and of the project, what validation accepts, and what fails;
    to ask for cancellation fails if it was asked for. -/
structure PackageBuildRequest where
  payloadChecks : Nat
  destinationChecks : Nat
  runtime : List PackageFile
  content : List PackageFile
  manifest : PackageFile
  isValid : List PackageFile → Bool
  fails : PackageOperation → Bool

namespace PackageBuildRequest

def work (r : PackageBuildRequest) : PackagePhase → List PackageWork
  | .snapshot => List.replicate r.payloadChecks .check
  | .validate => List.replicate r.destinationChecks .check
  | .stageRuntime => .check :: r.runtime.flatMap fun file =>
    .check :: (List.replicate (file.2.length / 65536 + 1) .isCancelled ++ [.write file])
  | .stageContent => .check :: r.content.flatMap fun file => [.check,.write file]
  | .hashManifest => [.check,.check,.check,.write r.manifest]
  | .finalize => [.check,.isCancelled]
  | .complete => []

def phase (r : PackageBuildRequest) (phase : PackagePhase) : List PackageOperation :=
  [.isCancelled phase,.progress phase] ++ (r.work phase).zipIdx.map fun (work,index) => .work phase index work

def untilCreated (r : PackageBuildRequest) : List PackageOperation :=
  r.phase .snapshot ++ r.phase .validate ++ [.createCandidate]
def staging (r : PackageBuildRequest) : List PackageOperation :=
  r.phase .stageRuntime ++ r.phase .stageContent ++ r.phase .hashManifest
def finalizing (r : PackageBuildRequest) : List PackageOperation :=
  .validateCandidate :: (r.phase .finalize ++ [.destinationExists,.moveAside])
def untilSwap (r : PackageBuildRequest) : List PackageOperation := r.untilCreated ++ (r.staging ++ r.finalizing)

/-- Only a destination that exists is moved aside, and only then is there a backup to remove. -/
def throws (r : PackageBuildRequest) (s : PackageSiblings) : PackageOperation → Bool
  | .validateCandidate => r.fails .validateCandidate || !s.candidate.any fun d => r.isValid d.files
  | .moveAside => s.destination.isSome && r.fails .moveAside
  | .removeBackup => s.backup.isSome && r.fails .removeBackup
  | o => r.fails o

/-- The operations up to the first that throws. -/
def perform (r : PackageBuildRequest) (s : PackageSiblings) : List PackageOperation → PackageSiblings × Option PackageOperation
  | [] => (s,none)
  | o :: rest => if r.throws s o then (s,some o) else r.perform (s.effect o) rest

/-- What was at the destination is moved back, if it is found to be gone. -/
def restore (r : PackageBuildRequest) (s : PackageSiblings) : PackageSiblings :=
  if s.backup.isSome ∧ r.fails .destinationStillExists = false ∧ s.destination = none then
    { s with destination := s.backup, backup := none }
  else s

def fail (r : PackageBuildRequest) (s : PackageSiblings) (thrown : PackageOperation) :
    PackageBuildResult × PackageSiblings :=
  let cancelled := r.fails .isCancelledAtLast || match thrown with
    | .isCancelled _ | .work _ _ .isCancelled => true
    | _ => false
  let result := if cancelled then ⟨false,true,"Cancelled","The package build was cancelled before finalization."⟩
    else ⟨false,false,"BuildFailed","The package build failed; the previous valid destination was preserved."⟩
  (result,if r.fails .removeCandidate then s else { s with candidate := none })

def before (previous : Option (List PackageFile)) : PackageSiblings := { destination := previous.map fun files => ⟨false,files⟩ }

def build (r : PackageBuildRequest) (previous : Option (List PackageFile)) : PackageBuildResult × PackageSiblings :=
  match r.perform (before previous) r.untilSwap with
  | (s,some thrown) => r.fail s thrown
  | (s,none) =>
    if r.fails .swap then r.fail (r.restore s) .swap
    else
      match r.perform (s.effect .swap) [.removeBackup,.progress .complete] with
      | (s,some thrown) => r.fail s thrown
      | (s,none) => (⟨true,false,"Complete","The standalone game package was built and validated."⟩,s)

/-- A build that succeeds leaves a candidate that was validated at the destination, one that does not leaves what was
    there, and neither leaves a sibling. -/
structure Promised (previous : Option (List PackageFile)) (ended : PackageBuildResult × PackageSiblings)
    (isValid : List PackageFile → Bool) : Prop where
  built : ended.1.ok = true → ∃ files, ended.2.destination = some ⟨true,files⟩ ∧ isValid files = true
  preserved : ended.1.ok = false → ended.2.destination = previous.map fun files => ⟨false,files⟩
  clean : ended.2.candidate = none ∧ ended.2.backup = none

/-- Nothing throws in some operations from the start. -/
def Reaches (r : PackageBuildRequest) (previous : Option (List PackageFile)) (l : List PackageOperation) : Prop :=
  (r.perform (before previous) l).2 = none

structure Fortunate (r : PackageBuildRequest) (previous : Option (List PackageFile)) : Prop where
  late : r.Reaches previous r.untilSwap → r.fails .swap = false →
    (previous.isSome = true → r.fails .removeBackup = false) ∧ r.fails (.progress .complete) = false
  cleanup : r.Reaches previous r.untilCreated →
    ¬ (r.Reaches previous r.untilSwap ∧ r.fails .swap = false) → r.fails .removeCandidate = false
  restored : r.Reaches previous r.untilSwap → r.fails .swap = true → previous.isSome = true →
    r.fails .destinationStillExists = false

variable {r : PackageBuildRequest} {previous : Option (List PackageFile)} {s t : PackageSiblings}
  {l l' : List PackageOperation} {o : PackageOperation} {p : PackagePhase} {files : List PackageFile}

theorem perform_append {thrown : Option PackageOperation} (first : r.perform s l = (t,thrown)) :
    r.perform s (l ++ l') = if thrown = none then r.perform t l' else (t,thrown) := by
  induction l generalizing s with
  | nil =>
    cases first
    rfl
  | cons o rest ih =>
    rw [cons_append,perform]
    rw [perform] at first
    by_cases stops : r.throws s o = true
    · rw [if_pos stops] at first ⊢
      cases first
      rfl
    · rw [if_neg stops] at first ⊢
      exact ih first

theorem perform_keeps {keeps : PackageSiblings → Prop} (each : ∀ o ∈ l, ∀ s, keeps s → keeps (s.effect o))
    (holds : keeps s) : ∃ t thrown, r.perform s l = (t,thrown) ∧ keeps t := by
  induction l generalizing s with
  | nil => exact ⟨s,none,rfl,holds⟩
  | cons o rest ih =>
    rw [perform]
    split_ifs
    · exact ⟨s,some o,rfl,holds⟩
    · exact ih (fun o' member => each o' (mem_cons_of_mem o member)) (each o (.head _ ..) s holds)

theorem effect_phase (member : o ∈ r.phase p) (s : PackageSiblings) :
    s.effect o = s ∨ ∃ index file, .write file ∈ r.work p ∧ o = .work p index (.write file) := by
  simp only [phase,mem_append,List.mem_map,mem_cons,not_mem_nil,or_false] at member
  obtain (rfl | rfl) | ⟨⟨work,index⟩,member,rfl⟩ := member
  · exact .inl rfl
  · exact .inl rfl
  · cases work with
    | write file => exact .inr ⟨index,file,(mem_zipIdx' member).2 ▸ getElem_mem _,rfl⟩
    | _ => exact .inl rfl

theorem perform_quiet (quiet : ∀ o ∈ l, ∃ p, o ∈ r.phase p ∧ ∀ file, PackageWork.write file ∉ r.work p) :
    ∃ thrown, r.perform s l = (s,thrown) := by
  obtain ⟨t,thrown,first,same⟩ : ∃ t thrown, r.perform s l = (t,thrown) ∧ t = s := by
    refine perform_keeps ?_ rfl
    intro o member t same
    obtain ⟨p,member,unwritten⟩ := quiet o member
    rcases effect_phase member t with kept | ⟨index,file,written,-⟩
    · rw [kept,same]
    · exact absurd written (unwritten file)
  exact ⟨thrown,by rw [first,same]⟩

theorem perform_untilCreated : r.perform s r.untilCreated = (s.effect .createCandidate,none) ∨
    ∃ o, r.perform s r.untilCreated = (s,some o) := by
  obtain ⟨thrown,first⟩ : ∃ thrown, r.perform s (r.phase .snapshot ++ r.phase .validate) = (s,thrown) := by
    refine perform_quiet fun o member => ?_
    rcases mem_append.mp member with member | member
    · exact ⟨_,member,fun file written => PackageWork.noConfusion (eq_of_mem_replicate written)⟩
    · exact ⟨_,member,fun file written => PackageWork.noConfusion (eq_of_mem_replicate written)⟩
  rw [untilCreated,perform_append first]
  split_ifs with reached
  · rw [perform]
    split_ifs
    · exact .inr ⟨_,rfl⟩
    · exact .inl rfl
  · obtain ⟨o,rfl⟩ := ne_none_iff_exists'.mp reached
    exact .inr ⟨o,rfl⟩

theorem perform_staging (made : s.candidate = some ⟨true,files⟩) :
    ∃ t thrown, r.perform s r.staging = (t,thrown) ∧ ∃ files, t = { s with candidate := some ⟨true,files⟩ } := by
  refine perform_keeps ?_ ⟨files,by rw [← made]⟩
  rintro o member _ ⟨staged,rfl⟩
  have inPhase : ∃ p, o ∈ r.phase p := by
    simp only [staging,mem_append] at member
    obtain (member | member) | member := member <;> exact ⟨_,member⟩
  obtain ⟨p,member⟩ := inPhase
  rcases effect_phase member { s with candidate := some ⟨true,staged⟩ } with kept | ⟨index,file,-,rfl⟩
  · exact ⟨staged,kept⟩
  · exact ⟨staged ++ [file],rfl⟩

theorem perform_finalizing (made : s.candidate = some ⟨true,files⟩) :
    r.isValid files ∧ r.perform s r.finalizing = (s.effect .moveAside,none) ∨
      ∃ o, r.perform s r.finalizing = (s,some o) := by
  obtain ⟨thrown,first⟩ : ∃ thrown, r.perform s (r.phase .finalize) = (s,thrown) :=
    perform_quiet fun o member => ⟨_,member,fun file written => by simp [work] at written⟩
  rw [finalizing,perform]
  split_ifs with refused
  · exact .inr ⟨_,rfl⟩
  have valid : r.isValid files := by
    simp only [throws,made,any_some,Bool.or_eq_true,Bool.not_eq_true',not_or,Bool.not_eq_false] at refused
    exact refused.2
  rw [show s.effect .validateCandidate = s from rfl,perform_append first]
  split_ifs with reached
  · rw [perform,perform]
    split_ifs
    · exact .inr ⟨_,rfl⟩
    · exact .inr ⟨_,rfl⟩
    · exact .inl ⟨valid,rfl⟩
  · obtain ⟨o,rfl⟩ := ne_none_iff_exists'.mp reached
    exact .inr ⟨o,rfl⟩

/-- Where a build can be before the swap. -/
inductive Reached (r : PackageBuildRequest) (previous : Option (List PackageFile)) :
    PackageSiblings × Option PackageOperation → Prop where
  | early {o : PackageOperation} (early : ¬ r.Reaches previous r.untilCreated) : Reached r previous (before previous,some o)
  | staged {o : PackageOperation} {files : List PackageFile} (created : r.Reaches previous r.untilCreated) :
      Reached r previous ({ before previous with candidate := some ⟨true,files⟩ },some o)
  | ready {files : List PackageFile} (created : r.Reaches previous r.untilCreated) (valid : r.isValid files = true) :
      Reached r previous (⟨none,some ⟨true,files⟩,(before previous).destination⟩,none)

theorem reached_untilSwap : Reached r previous (r.perform (before previous) r.untilSwap) := by
  rw [untilSwap]
  rcases perform_untilCreated with first | ⟨o,first⟩
  · have created : r.Reaches previous r.untilCreated := congrArg Prod.snd first
    rw [perform_append first]
    obtain ⟨_,thrown,second,files,rfl⟩ :=
      perform_staging (s := (before previous).effect .createCandidate) rfl
    rw [perform_append second]
    cases thrown with
    | some o => exact .staged created
    | none =>
      obtain ⟨valid,third⟩ | ⟨o,third⟩ :=
        perform_finalizing (s := { before previous with candidate := some ⟨true,files⟩ }) rfl
      · exact third ▸ .ready created valid
      · exact third ▸ .staged created
  · rw [perform_append first]
    exact .early fun created => some_ne_none o ((congrArg Prod.snd first).symm.trans created)

theorem promised_fail {isValid : List PackageFile → Bool} : Promised previous (r.fail s o) isValid ↔
    s.destination = (before previous).destination ∧ (s.candidate = none ∨ r.fails .removeCandidate = false) ∧
      s.backup = none := by
  have failed : (r.fail s o).1.ok = false := by
    unfold fail
    dsimp only
    split_ifs <;> rfl
  have ended : (r.fail s o).2 = if r.fails .removeCandidate then s else { s with candidate := none } := rfl
  constructor
  · rintro ⟨-,preserved,candidate,backup⟩
    have preserved := preserved failed
    rw [ended] at preserved candidate backup
    split_ifs at preserved candidate backup with stuck
    · exact ⟨preserved,.inl candidate,backup⟩
    · exact ⟨preserved,.inr (eq_false_of_ne_true stuck),backup⟩
  · rintro ⟨preserved,candidate,backup⟩
    refine ⟨fun ok => absurd ok (by rw [failed]; exact nofun),fun _ => ?_,?_⟩
    all_goals
      rw [ended]
      split_ifs with stuck
    · exact preserved
    · exact preserved
    · exact ⟨candidate.resolve_right fun removed => Bool.noConfusion (stuck.symm.trans removed),backup⟩
    · exact ⟨rfl,backup⟩

/-- A build keeps what it promises exactly if nothing fails that it cannot recover from. -/
theorem build_keeps_iff (r : PackageBuildRequest) (previous : Option (List PackageFile)) :
    Promised previous (r.build previous) r.isValid ↔ r.Fortunate previous := by
  unfold build
  have cases : Reached r previous (r.perform (before previous) r.untilSwap) := reached_untilSwap
  have reaches : r.Reaches previous r.untilSwap ↔ (r.perform (before previous) r.untilSwap).2 = none := .rfl
  generalize r.perform (before previous) r.untilSwap = reached at cases reaches ⊢
  cases cases with
  | early early =>
    have missed := mt reaches.mp (some_ne_none _)
    exact iff_of_true (promised_fail.mpr ⟨rfl,.inl rfl,rfl⟩)
      ⟨fun reach => absurd reach missed,fun reach => absurd reach early,fun reach => absurd reach missed⟩
  | staged created =>
    have missed := mt reaches.mp (some_ne_none _)
    refine promised_fail.trans ⟨?_,fun fortunate =>
      ⟨rfl,.inr (fortunate.cleanup created fun reach => missed reach.1),rfl⟩⟩
    rintro ⟨-,gone | removed,-⟩
    · cases gone
    · exact ⟨fun reach => absurd reach missed,fun _ _ => removed,fun reach => absurd reach missed⟩
  | @ready files created valid =>
  have reach := reaches.mpr rfl
  cases swaps : r.fails .swap with
  | true =>
    have fortunate : r.Fortunate previous ↔ r.fails .removeCandidate = false ∧
        (previous.isSome = true → r.fails .destinationStillExists = false) := by
      refine ⟨fun fortunate => ⟨fortunate.cleanup created fun swapped => ?_,fortunate.restored reach swaps⟩,
        fun holds => ⟨fun _ swapped => ?_,fun _ _ => holds.1,fun _ _ => holds.2⟩⟩
      all_goals simp [swaps] at swapped
    dsimp only
    rw [if_pos rfl,promised_fail,fortunate]
    cases previous with
    | none => simp [restore,before]
    | some files => cases still : r.fails .destinationStillExists <;> simp [restore,before,still]
  | false =>
    have fortunate : r.Fortunate previous ↔
        (previous.isSome = true → r.fails .removeBackup = false) ∧ r.fails (.progress .complete) = false :=
      ⟨fun fortunate => fortunate.late reach swaps,
        fun holds => ⟨fun _ _ => holds,fun _ missed => absurd ⟨reach,swaps⟩ missed,fun _ failed => by simp [swaps] at failed⟩⟩
    rw [fortunate]
    dsimp only
    rw [if_neg nofun,perform,perform]
    have new : some ⟨true,files⟩ ≠ (before previous).destination := by cases previous <;> simp [before]
    have backed : (before previous).destination.isSome = previous.isSome := isSome_map
    have throws : r.throws (.effect ⟨none,some ⟨true,files⟩,(before previous).destination⟩ .swap)
        .removeBackup = (previous.isSome && r.fails .removeBackup) := congrArg (· && r.fails .removeBackup) backed
    by_cases stuck : (previous.isSome && r.fails .removeBackup) = true
    · rw [throws,if_pos stuck]
      exact iff_of_false (fun promised => new (promised_fail.mp promised).1) fun holds => by simp_all
    rw [throws,if_neg stuck]
    cases told : r.fails (.progress .complete) with
    | true =>
      rw [if_pos (show r.throws _ (.progress .complete) = true from told)]
      exact iff_of_false (fun promised => new (promised_fail.mp promised).1) fun holds => Bool.noConfusion holds.2
    | false =>
      rw [if_neg (show ¬ r.throws _ (.progress .complete) = true from ne_true_of_eq_false told)]
      exact iff_of_true ⟨fun _ => ⟨files,rfl,valid⟩,Bool.noConfusion,rfl,rfl⟩
        ⟨by simpa using stuck,rfl⟩

/-- Once a package is swapped in, its backup cannot be removed: the build says that it failed and kept what was there. -/
theorem swapped_build_fails : ¬ ∀ (r : PackageBuildRequest) (previous : Option (List PackageFile)),
    Promised previous (r.build previous) r.isValid := by
  intro promised
  have preserved := (promised ⟨1,1,[],[],("game.package.json",[]),fun _ => true,(· = .removeBackup)⟩ (some [])).preserved
    (by decide)
  revert preserved
  decide

end PackageBuildRequest
end Gargantuan
