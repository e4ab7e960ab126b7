import Mathlib.Tactic.SplitIfs

/-!
The lifecycle of the runtime schema: a candidate registry is filled, validated, frozen and published while the
active one stays. What registration and validation check of definitions is the parameter `Rules`.
-/
namespace Gargantuan.RuntimeSchemaLifecycle
open List

inductive Phase where
  | bootstrap | nativeRegistration | coreRegistration | preRunRegistration | validation | frozen | runtime
deriving DecidableEq

def Phase.name : Phase → String
  | .bootstrap => "Bootstrap"
  | .nativeRegistration => "NativeRegistration"
  | .coreRegistration => "CoreRegistration"
  | .preRunRegistration => "PreRunRegistration"
  | .validation => "Validation"
  | .frozen => "Frozen"
  | .runtime => "Runtime"

/-- The only phase that registration may advance to. -/
def Phase.following : Phase → Option Phase
  | .nativeRegistration => some .coreRegistration
  | .coreRegistration => some .preRunRegistration
  | .preRunRegistration => some .validation
  | _ => none

inductive RegistryState where
  | building | validated | frozen
deriving DecidableEq

def RegistryState.name : RegistryState → String
  | .building => "Building"
  | .validated => "Validated"
  | .frozen => "Frozen"

structure Registry (ρ : Type) where
  contents : ρ
  state : RegistryState := .building

/-- What registering a native definition, or one of a script, and validating do to the contents, unless they throw. -/
structure Rules (ρ δ : Type) where
  empty : ρ
  registerNative : ρ → δ → Except String ρ
  register : ρ → δ → Except String ρ
  validate : ρ → Except String ρ

structure Lifecycle (ρ : Type) where
  phase : Phase := .bootstrap
  activeGeneration : Nat := 0
  candidate : Option (Registry ρ) := none
  active : Option (Registry ρ) := none

inductive Kind where
  | enum | class_ | extension

def Kind.name : Kind → String
  | .enum => "enum"
  | .class_ => "class"
  | .extension => "extension"

def Kind.operation : Kind → String
  | .enum => "register an enum definition"
  | .class_ => "register a class definition"
  | .extension => "register an extension definition"

def Kind.registryOperation : Kind → String
  | .class_ => "register a custom class definition"
  | kind => kind.operation

inductive Call (δ : Type) where
  | begin_
  | registerNative (definition : δ)
  | register (kind : Kind) (definition : δ) (definesSchema : Bool)
  | advance (next : Phase)
  | validate
  | freeze
  | publish
  | abort

variable {ρ δ : Type}

def Registry.alter (operation : String) (change : ρ → Except String ρ) (state : RegistryState) (r : Registry ρ) :
    Except String (Registry ρ) :=
  if r.state ≠ .building then
    .error ("Runtime schema registry cannot " ++ operation ++ " while " ++ r.state.name)
  else (change r.contents).map fun contents => { contents, state }

def Registry.freeze (r : Registry ρ) : Except String (Registry ρ) :=
  if r.state ≠ .validated then .error ("Runtime schema registry cannot freeze while " ++ r.state.name)
  else .ok { r with state := .frozen }

def Lifecycle.drop (s : Lifecycle ρ) : Lifecycle ρ :=
  { s with candidate := none, phase := if s.active.isSome then .runtime else .bootstrap }

def Lifecycle.rejectCandidate (s : Lifecycle ρ) (operation reason : String) : Except String Unit × Lifecycle ρ :=
  (.error ("Runtime schema candidate " ++ operation ++ " failed during " ++ s.phase.name ++ ": " ++ reason ++
    "; candidate publication aborted"),s.drop)

def Lifecycle.requirePhase (s : Lifecycle ρ) (expected : Phase) (operation : String)
    (body : Except String Unit × Lifecycle ρ) : Except String Unit × Lifecycle ρ :=
  if s.phase ≠ expected then
    (.error ("Runtime schema lifecycle cannot " ++ operation ++ " during " ++ s.phase.name ++ "; expected " ++
      expected.name),s)
  else body

/-- The candidate is changed, or rejected for the reason given. Without one the source has nothing to point to. -/
def Lifecycle.change (s : Lifecycle ρ) (operation : String) (change : Registry ρ → Except String (Registry ρ))
    (next : Phase) : Except String Unit × Lifecycle ρ :=
  match s.candidate with
  | none => (.error "no candidate",s)
  | some r =>
    match change r with
    | .error reason => s.rejectCandidate operation reason
    | .ok r => (.ok (),{ s with candidate := some r, phase := next })

def maximumGeneration : Nat := UInt64.size - 1

def call (rules : Rules ρ δ) (s : Lifecycle ρ) : Call δ → Except String Unit × Lifecycle ρ
  | .begin_ =>
    if s.phase ≠ .bootstrap ∧ s.phase ≠ .runtime then
      (.error ("Runtime schema lifecycle cannot begin a candidate during " ++ s.phase.name),s)
    else if s.candidate.isSome then (.error "Runtime schema lifecycle already has a candidate",s)
    else (.ok (),{ s with candidate := some { contents := rules.empty }, phase := .nativeRegistration })
  | .registerNative d =>
    let operation := "register a native definition"
    s.requirePhase .nativeRegistration operation <|
      s.change "registration" (Registry.alter operation (rules.registerNative · d) .building) s.phase
  | .register kind d definesSchema =>
    s.requirePhase .preRunRegistration kind.operation <|
      if !definesSchema then
        s.rejectCandidate "registration" (kind.name ++ " definition requires DefineSchema capability")
      else s.change "registration" (Registry.alter kind.registryOperation (rules.register · d) .building) s.phase
  | .advance next =>
    match s.phase.following with
    | none => (.error ("Runtime schema lifecycle cannot advance registration during " ++ s.phase.name),s)
    | some expected =>
      if next ≠ expected then
        (.error ("Invalid runtime schema lifecycle transition from " ++ s.phase.name ++ " to " ++ next.name ++
          "; expected " ++ expected.name),s)
      else (.ok (),{ s with phase := next })
  | .validate =>
    s.requirePhase .validation "validate a candidate" <|
      s.change "validation" (Registry.alter "validate" rules.validate .validated) s.phase
  | .freeze =>
    s.requirePhase .validation "freeze a candidate" <| s.change "freeze" Registry.freeze .frozen
  | .publish =>
    s.requirePhase .frozen "publish a candidate" <|
      if !s.candidate.any (·.state = .frozen) then s.rejectCandidate "publication" "candidate is not frozen"
      else if s.activeGeneration = maximumGeneration then
        s.rejectCandidate "publication" "registry generation exhausted and will not roll over"
      else (.ok (),{ phase := .runtime, activeGeneration := s.activeGeneration + 1, active := s.candidate })
  | .abort =>
    if s.candidate.isNone then (.error "Runtime schema lifecycle cannot abort without a candidate",s)
    else (.ok (),s.drop)

/-- The state after some calls, failed ones among them. -/
def after (rules : Rules ρ δ) (calls : List (Call δ)) : Lifecycle ρ := calls.foldl (fun s c => (call rules s c).2) {}

/-- The calls up to the first that fails. -/
def attempt (rules : Rules ρ δ) (s : Lifecycle ρ) : List (Call δ) → Except String Unit × Lifecycle ρ
  | [] => (.ok (),s)
  | c :: rest =>
    match call rules s c with
    | (.error e,s) => (.error e,s)
    | (.ok (),s) => attempt rules s rest

/-- What a script registers: the kind, the definition, and whether the script may define schemas. -/
abbrev Script (δ : Type) := List (Kind × δ × Bool)

def registerAll (rules : Rules ρ δ) (script : Script δ) (s : Lifecycle ρ) : Lifecycle ρ :=
  script.foldl (fun s d => (call rules s (.register d.1 d.2.1 d.2.2)).2) s

/-- What is left to do about an exception. -/
def abandon (rules : Rules ρ δ) (s : Lifecycle ρ) : Lifecycle ρ :=
  if s.candidate.isSome then (call rules s .abort).2 else s

/-- A run of the script: its registrations, of which it may catch the failures, and what it throws. -/
def executePreRun (rules : Rules ρ δ) (script : Script δ) (thrown : Option String) (s : Lifecycle ρ) :
    Except String Unit × Lifecycle ρ :=
  let s := registerAll rules script s
  match thrown with
  | none => (.ok (),s)
  | some e => (.error e,abandon rules s)

def andThen (t : Except String Unit × Lifecycle ρ) (next : Lifecycle ρ → Except String Unit × Lifecycle ρ) :
    Except String Unit × Lifecycle ρ :=
  match t with
  | (.error e,s) => (.error e,s)
  | (.ok (),s) => next s

/-- The handler of a block that may throw. -/
def recover (rules : Rules ρ δ) (t : Except String Unit × Lifecycle ρ) : Except String Unit × Lifecycle ρ :=
  match t with
  | (.error e,s) => (.error e,abandon rules s)
  | (.ok (),s) => (.ok (),s)

/-- The source sorts the native definitions by name first. -/
def bootstrapPackaged (rules : Rules ρ δ) (natives : List δ) (script : Script δ) (thrown : Option String)
    (s : Lifecycle ρ) : Except String Unit × Lifecycle ρ :=
  if natives.isEmpty then (.error "Native schema seeds are unavailable for project registration",s)
  else andThen (call rules s .begin_) fun s =>
    recover rules (andThen (andThen (attempt rules s (natives.map .registerNative ++ [.advance .coreRegistration,
      .advance .preRunRegistration])) (executePreRun rules script thrown))
      (attempt rules · [.advance .validation,.validate,.freeze,.publish]))

/-- The contents that native definitions and then those of scripts make. -/
def assembled (rules : Rules ρ δ) (natives defined : List δ) : Except String ρ :=
  (natives.foldlM rules.registerNative rules.empty).bind fun contents => defined.foldlM rules.register contents

/-- The contents came from registrations and then passed validation. -/
def Checked (rules : Rules ρ δ) (contents : ρ) : Prop :=
  ∃ natives defined built, assembled rules natives defined = .ok built ∧ rules.validate built = .ok contents

def Built (rules : Rules ρ δ) (r : Registry ρ) : Prop :=
  r.state = .building ∧ ∃ natives defined, assembled rules natives defined = .ok r.contents

/-- How far the candidate is in each phase. -/
def Filled (rules : Rules ρ δ) : Phase → Registry ρ → Prop
  | .nativeRegistration, r | .coreRegistration, r =>
    r.state = .building ∧ ∃ natives, assembled rules natives [] = .ok r.contents
  | .preRunRegistration, r => Built rules r
  | .validation, r => Built rules r ∨ r.state = .validated ∧ Checked rules r.contents
  | .frozen, r => r.state = .frozen ∧ Checked rules r.contents
  | .bootstrap, _ | .runtime, _ => False

/-- The contents in place of what was active. -/
def Lifecycle.published (s : Lifecycle ρ) (contents : ρ) : Lifecycle ρ :=
  { phase := .runtime, activeGeneration := s.activeGeneration + 1, active := some { contents, state := .frozen } }

/-- What becomes of a candidate with these native definitions: the script and the validation make it the valid one. -/
structure Passes (rules : Rules ρ δ) (script : Script δ) (thrown : Option String) (s : Lifecycle ρ)
    (contents valid : ρ) : Prop where
  capable : ∀ d ∈ script, d.2.2 = true
  returned : thrown = none
  generation : s.activeGeneration ≠ maximumGeneration
  validated : ((script.map (·.2.1)).foldlM rules.register contents).bind rules.validate = .ok valid

/-- What the packaged bootstrap needs to publish these contents. -/
def Publishes (rules : Rules ρ δ) (natives : List δ) (script : Script δ) (thrown : Option String) (s : Lifecycle ρ)
    (valid : ρ) : Prop :=
  natives ≠ [] ∧ ∃ contents, natives.foldlM rules.registerNative rules.empty = .ok contents ∧
    Passes rules script thrown s contents valid

structure Sound (rules : Rules ρ δ) (s : Lifecycle ρ) : Prop where
  filled : ∀ r, s.candidate = some r → Filled rules s.phase r
  idle : s.candidate = none → s.phase = if s.active.isSome then .runtime else .bootstrap
  active : ∀ r, s.active = some r → r.state = .frozen ∧ Checked rules r.contents
  generation : s.activeGeneration = 0 ↔ s.active = none

/-- A step that publishes nothing. When it fails it gives the candidate up, or changes nothing. -/
structure Steady (rules : Rules ρ δ) (s : Lifecycle ρ) (t : Except String Unit × Lifecycle ρ) : Prop where
  sound : Sound rules t.2
  active : t.2.active = s.active
  generation : t.2.activeGeneration = s.activeGeneration
  failed : t.1.isOk = false → t.2 = s ∨ t.2 = s.drop

variable {rules : Rules ρ δ} {s : Lifecycle ρ}

theorem Sound.unchanged (sound : Sound rules s) (e : Except String Unit) : Steady rules s (e,s) :=
  ⟨sound,rfl,rfl,fun _ => .inl rfl⟩

theorem Sound.drop (sound : Sound rules s) (e : Except String Unit) : Steady rules s (e,s.drop) :=
  ⟨⟨nofun,fun _ => rfl,sound.active,sound.generation⟩,rfl,rfl,fun _ => .inr rfl⟩

theorem Sound.advance (sound : Sound rules s) {r : Registry ρ} {next : Phase} (filled : Filled rules next r) :
    Steady rules s (.ok (),{ s with candidate := some r, phase := next }) :=
  ⟨⟨by rintro _ ⟨⟩; exact filled,nofun,sound.active,sound.generation⟩,rfl,rfl,nofun⟩

theorem Sound.requirePhase (sound : Sound rules s) {expected : Phase} {operation : String}
    {body : Except String Unit × Lifecycle ρ} (steady : s.phase = expected → Steady rules s body) :
    Steady rules s (s.requirePhase expected operation body) := by
  unfold Lifecycle.requirePhase
  split_ifs with other
  · exact sound.unchanged _
  · exact steady (Decidable.not_not.mp other)

theorem Sound.change (sound : Sound rules s) {operation : String} {change : Registry ρ → Except String (Registry ρ)}
    {next : Phase} (fills : ∀ r r', Filled rules s.phase r → change r = .ok r' → Filled rules next r') :
    Steady rules s (s.change operation change next) := by
  unfold Lifecycle.change
  split
  · exact sound.unchanged _
  next r there =>
  split
  · exact sound.drop _
  next r' changed => exact sound.advance (fills r r' (sound.filled r there) changed)

theorem alter_ok {operation : String} {change : ρ → Except String ρ} {state : RegistryState} {r r' : Registry ρ}
    (altered : r.alter operation change state = .ok r') :
    r.state = .building ∧ change r.contents = .ok r'.contents ∧ r'.state = state := by
  unfold Registry.alter at altered
  split_ifs at altered with building
  rcases changed : change r.contents with e | contents
  · rw [changed] at altered
    cases altered
  · rw [changed] at altered
    cases altered
    exact ⟨Decidable.not_not.mp building,rfl,rfl⟩

theorem assembled_native {natives : List δ} {contents next : ρ} {d : δ}
    (built : assembled rules natives [] = .ok contents)
    (registered : rules.registerNative contents d = .ok next) : assembled rules (natives ++ [d]) [] = .ok next := by
  unfold assembled at *
  rw [foldlM_append]
  rcases before : natives.foldlM rules.registerNative rules.empty with e | c
  · rw [before] at built
    cases built
  · rw [before] at built
    cases built
    simp [bind,Except.bind,pure,Except.pure,registered]

theorem assembled_defined {natives defined : List δ} {contents next : ρ} {d : δ}
    (built : assembled rules natives defined = .ok contents) (registered : rules.register contents d = .ok next) :
    assembled rules natives (defined ++ [d]) = .ok next := by
  unfold assembled at *
  rcases before : natives.foldlM rules.registerNative rules.empty with e | c
  · rw [before] at built
    cases built
  · rw [before] at built
    change defined.foldlM rules.register c = .ok contents at built
    change (defined ++ [d]).foldlM rules.register c = .ok next
    rw [foldlM_append,built]
    simp [bind,Except.bind,pure,Except.pure,registered]

theorem filled_following {phase next : Phase} {r : Registry ρ} (following : phase.following = some next)
    (filled : Filled rules phase r) : Filled rules next r := by
  cases phase <;> cases following
  · exact filled
  · exact ⟨filled.1,filled.2.imp fun natives built => ⟨[],built⟩⟩
  · exact .inl filled

/-- What every call but a publication does. -/
theorem call_steady (sound : Sound rules s) {c : Call δ} (quiet : c ≠ .publish) : Steady rules s (call rules s c) := by
  cases c with
  | begin_ =>
    rw [call]
    split_ifs
    · exact sound.unchanged _
    · exact sound.unchanged _
    · exact sound.advance ⟨rfl,[],rfl⟩
  | registerNative d =>
    refine sound.requirePhase fun phase => sound.change fun r r' filled altered => ?_
    rw [phase] at filled ⊢
    obtain ⟨-,natives,built⟩ := filled
    obtain ⟨-,registered,state⟩ := alter_ok altered
    exact ⟨state,_,assembled_native built registered⟩
  | register kind d definesSchema =>
    refine sound.requirePhase fun phase => ?_
    split_ifs
    · exact sound.drop _
    refine sound.change fun r r' filled altered => ?_
    rw [phase] at filled ⊢
    obtain ⟨-,natives,defined,built⟩ := filled
    obtain ⟨-,registered,state⟩ := alter_ok altered
    exact ⟨state,natives,_,assembled_defined built registered⟩
  | advance next =>
    rw [call]
    split
    · exact sound.unchanged _
    next expected following =>
    split_ifs with other
    · exact sound.unchanged _
    obtain rfl := Decidable.not_not.mp other
    cases there : s.candidate with
    | none =>
      rw [sound.idle there] at following
      split_ifs at following <;> cases following
    | some r =>
      exact sound.advance (filled_following following (sound.filled r there))
  | validate =>
    refine sound.requirePhase fun phase => sound.change fun r r' filled altered => ?_
    rw [phase] at filled ⊢
    obtain ⟨building,validated,state⟩ := alter_ok altered
    rcases filled with ⟨-,natives,defined,built⟩ | ⟨validated,-⟩
    · exact .inr ⟨state,natives,defined,_,built,validated⟩
    · rw [building] at validated
      cases validated
  | freeze =>
    refine sound.requirePhase fun phase => sound.change fun r r' filled frozen => ?_
    rw [phase] at filled
    unfold Registry.freeze at frozen
    split_ifs at frozen with validated
    cases frozen
    rcases filled with ⟨building,-⟩ | ⟨-,checked⟩
    · rw [building] at validated
      exact absurd nofun validated
    · exact ⟨rfl,checked⟩
  | publish => exact absurd rfl quiet
  | abort =>
    rw [call]
    split_ifs
    · exact sound.unchanged _
    · exact sound.drop _

/-- A publication puts the frozen candidate in place, or is refused. -/
theorem call_publish (sound : Sound rules s) :
    Steady rules s (call rules s .publish) ∧ (call rules s .publish).1.isOk = false ∨
    Sound rules (call rules s .publish).2 ∧ (call rules s .publish).1 = .ok () ∧
      (call rules s .publish).2.active = s.candidate ∧ (call rules s .publish).2.candidate = none ∧
      (call rules s .publish).2.activeGeneration = s.activeGeneration + 1 := by
  rw [call,Lifecycle.requirePhase]
  split_ifs with other thawed exhausted
  · exact .inl ⟨sound.unchanged _,rfl⟩
  · exact .inl ⟨sound.drop _,rfl⟩
  · exact .inl ⟨sound.drop _,rfl⟩
  · rw [Decidable.not_not] at other
    cases there : s.candidate with
    | none => simp [there] at thawed
    | some r =>
      have filled := sound.filled r there
      rw [other] at filled
      refine .inr ⟨⟨nofun,fun _ => rfl,?_,by simp⟩,rfl,rfl,rfl,rfl⟩
      rintro _ ⟨⟩
      exact filled

theorem sound_call (sound : Sound rules s) (c : Call δ) : Sound rules (call rules s c).2 := by
  by_cases publishes : c = .publish
  · subst publishes
    exact (call_publish sound).elim (·.1.sound) (·.1)
  · exact (call_steady sound publishes).sound

theorem sound_after (rules : Rules ρ δ) (calls : List (Call δ)) : Sound rules (after rules calls) := by
  have start : Sound rules {} := ⟨nofun,fun _ => rfl,nofun,iff_of_true rfl rfl⟩
  unfold after
  generalize ({} : Lifecycle ρ) = s at start ⊢
  induction calls generalizing s with
  | nil => exact start
  | cons c rest ih => exact ih _ (sound_call start c)

theorem Sound.idle_iff (sound : Sound rules s) : s.candidate = none ↔ s.phase = .bootstrap ∨ s.phase = .runtime := by
  constructor
  · intro none
    rw [sound.idle none]
    split_ifs
    · exact .inr rfl
    · exact .inl rfl
  · intro phase
    cases there : s.candidate with
    | none => rfl
    | some r =>
      have filled := sound.filled r there
      rcases phase with phase | phase <;> rw [phase] at filled <;> exact filled.elim

/-- After any calls the active registry is a frozen one that was registered and validated as a whole. Only a publication
    changes it, and puts the candidate in its place; what fails gives the candidate up at most. -/
theorem lifecycle_after (rules : Rules ρ δ) (calls : List (Call δ)) :
    let s := after rules calls
    (∀ r, s.active = some r → r.state = .frozen ∧ Checked rules r.contents) ∧
    (s.activeGeneration = 0 ↔ s.active = none) ∧ (s.candidate = none ↔ s.phase = .bootstrap ∨ s.phase = .runtime) ∧
    ∀ c : Call δ, (let t := call rules s c
      (t.2.active = s.active ∧ t.2.activeGeneration = s.activeGeneration ∧
        (t.1.isOk = false → t.2 = s ∨ t.2 = s.drop)) ∨
      c = .publish ∧ t.1 = .ok () ∧ t.2.active = s.candidate ∧ t.2.activeGeneration = s.activeGeneration + 1) := by
  have sound := sound_after rules calls
  refine ⟨sound.active,sound.generation,sound.idle_iff,fun c => ?_⟩
  by_cases publishes : c = .publish
  · subst publishes
    rcases call_publish sound with ⟨steady,-⟩ | ⟨-,done,active,-,generation⟩
    · exact .inl ⟨steady.active,steady.generation,steady.failed⟩
    · exact .inr ⟨rfl,done,active,generation⟩
  · have steady := call_steady sound publishes
    exact .inl ⟨steady.active,steady.generation,steady.failed⟩

def Lifecycle.holding (s : Lifecycle ρ) (phase : Phase) (contents : ρ) : Lifecycle ρ :=
  { s with candidate := some { contents }, phase }

theorem holding_change {change : ρ → Except String ρ} {contents built : ρ} (s : Lifecycle ρ) (phase next : Phase)
    (operation registryOperation : String) (state : RegistryState) (changed : change contents = .ok built) :
    (s.holding phase contents).change operation (Registry.alter registryOperation change state) next =
      (.ok (),{ s with candidate := some { contents := built, state }, phase := next }) := by
  simp only [Lifecycle.change,Lifecycle.holding,Registry.alter,changed]
  rfl

theorem holding_reject {change : ρ → Except String ρ} {contents : ρ} {e : String} (s : Lifecycle ρ) (phase next : Phase)
    (operation registryOperation : String) (state : RegistryState) (failed : change contents = .error e) :
    ∃ e', (s.holding phase contents).change operation (Registry.alter registryOperation change state) next =
      (.error e',s.drop) := by
  simp only [Lifecycle.change,Lifecycle.holding,Registry.alter,failed]
  exact ⟨_,rfl⟩

theorem Sound.drop_eq (sound : Sound rules s) (idle : s.candidate = none) : s.drop = s := by
  rw [Lifecycle.drop,← idle,← sound.idle idle]

theorem natives_run (rules : Rules ρ δ) (s : Lifecycle ρ) (natives : List δ) (rest : List (Call δ)) (contents : ρ) :
    (∀ built, natives.foldlM rules.registerNative contents = .ok built →
      attempt rules (s.holding .nativeRegistration contents) (natives.map .registerNative ++ rest) =
        attempt rules (s.holding .nativeRegistration built) rest) ∧
    ∀ e, natives.foldlM rules.registerNative contents = .error e → ∃ e',
      attempt rules (s.holding .nativeRegistration contents) (natives.map .registerNative ++ rest) =
        (.error e',s.drop) := by
  induction natives generalizing contents with
  | nil => exact ⟨by rintro _ ⟨⟩; rfl,nofun⟩
  | cons d natives ih =>
    rw [foldlM_cons,map_cons,cons_append,attempt]
    rcases registered : rules.registerNative contents d with e | next
    · obtain ⟨e',rejected⟩ : ∃ e', call rules (s.holding .nativeRegistration contents) (.registerNative d) =
          (.error e',s.drop) := holding_reject s _ _ _ _ _ registered
      rw [rejected]
      exact ⟨nofun,fun _ _ => ⟨e',rfl⟩⟩
    · have accepted : call rules (s.holding .nativeRegistration contents) (.registerNative d) =
          (.ok (),s.holding .nativeRegistration next) := holding_change s _ _ _ _ _ registered
      rw [accepted]
      exact ih next

theorem register_idle (idle : s.candidate = none) (sound : Sound rules s) (kind : Kind) (d : δ) (definesSchema : Bool) :
    (call rules s (.register kind d definesSchema)).2 = s := by
  have other : s.phase ≠ .preRunRegistration := by
    rcases sound.idle_iff.mp idle with phase | phase <;> rw [phase] <;> decide
  rw [call,Lifecycle.requirePhase,if_pos other]

/-- The definitions that a script may register and that the registry takes. -/
def Registers (rules : Rules ρ δ) (script : Script δ) (contents built : ρ) : Prop :=
  (∀ d ∈ script, d.2.2 = true) ∧ (script.map (·.2.1)).foldlM rules.register contents = .ok built

theorem script_run (sound : Sound rules s) (idle : s.candidate = none) (script : Script δ) (contents : ρ) :
    (∀ built, Registers rules script contents built →
      registerAll rules script (s.holding .preRunRegistration contents) = s.holding .preRunRegistration built) ∧
    ((∀ built, ¬Registers rules script contents built) →
      registerAll rules script (s.holding .preRunRegistration contents) = s) := by
  have stays (script : Script δ) : registerAll rules script s = s := by
    induction script with
    | nil => rfl
    | cons d script ih => rw [registerAll,foldl_cons,register_idle idle sound,← registerAll,ih]
  induction script generalizing contents with
  | nil => exact ⟨by rintro _ ⟨-,⟨⟩⟩; rfl,fun none => absurd ⟨nofun,rfl⟩ (none contents)⟩
  | cons d script ih =>
    obtain ⟨kind,d,definesSchema⟩ := d
    rw [registerAll,foldl_cons,← registerAll]
    simp only [Registers,map_cons,foldlM_cons,forall_mem_cons]
    cases definesSchema with
    | false =>
      have rejected : (call rules (s.holding .preRunRegistration contents) (.register kind d false)).2 = s :=
        sound.drop_eq idle
      rw [rejected]
      exact ⟨fun _ capable => absurd capable.1.1 Bool.false_ne_true,fun _ => stays script⟩
    | true =>
      rcases registered : rules.register contents d with e | next
      · obtain ⟨e',rejected⟩ : ∃ e', call rules (s.holding .preRunRegistration contents) (.register kind d true) =
            (.error e',s.drop) := holding_reject s _ _ _ _ _ registered
        rw [rejected,sound.drop_eq idle]
        exact ⟨nofun,fun _ => stays script⟩
      · have accepted : call rules (s.holding .preRunRegistration contents) (.register kind d true) =
            (.ok (),s.holding .preRunRegistration next) := holding_change s _ _ _ _ _ registered
        rw [accepted]
        exact ⟨fun built defined => (ih next).1 built ⟨defined.1.2,defined.2⟩,
          fun none => (ih next).2 fun built defined => none built ⟨⟨rfl,defined.1⟩,defined.2⟩⟩

/-- The end of the bootstrap, from the candidate the script left. -/
theorem publication_run (rules : Rules ρ δ) (s : Lifecycle ρ) (contents : ρ) :
    let t := attempt rules (s.holding .preRunRegistration contents) [.advance .validation,.validate,.freeze,.publish]
    (∀ valid, s.activeGeneration ≠ maximumGeneration → rules.validate contents = .ok valid →
      t = (.ok (),s.published valid)) ∧
    (¬ (∃ valid, s.activeGeneration ≠ maximumGeneration ∧ rules.validate contents = .ok valid) →
      ∃ e, t = (.error e,s.drop)) := by
  dsimp only
  rw [attempt]
  change (∀ valid,_ → _ → attempt rules (s.holding .validation contents) _ = _) ∧
    (_ → ∃ e, attempt rules (s.holding .validation contents) _ = _)
  rcases validated : rules.validate contents with e | valid
  · obtain ⟨e',rejected⟩ : ∃ e', call rules (s.holding .validation contents) .validate = (.error e',s.drop) :=
      holding_reject s _ _ _ _ _ validated
    rw [attempt,rejected]
    exact ⟨nofun,fun _ => ⟨e',rfl⟩⟩
  · have accepted : call rules (s.holding .validation contents) .validate =
        (.ok (),{ s with candidate := some { contents := valid, state := .validated }, phase := .validation }) :=
      holding_change s _ _ _ _ _ validated
    let frozen : Lifecycle ρ :=
      { s with candidate := some { contents := valid, state := .frozen }, phase := .frozen }
    rw [attempt,accepted]
    change (∀ valid,_ → _ → attempt rules frozen _ = _) ∧ (_ → ∃ e, attempt rules frozen _ = _)
    by_cases exhausted : s.activeGeneration = maximumGeneration
    · have refused : ∃ e, call rules frozen .publish = (.error e,s.drop) := by
        rw [call,Lifecycle.requirePhase]
        exact ⟨_,if_pos exhausted⟩
      obtain ⟨e,refused⟩ := refused
      rw [attempt,refused]
      exact ⟨fun _ room => absurd exhausted room,fun _ => ⟨e,rfl⟩⟩
    · refine ⟨?_,fun none => absurd ⟨valid,exhausted,rfl⟩ none⟩
      rintro _ - ⟨⟩
      have published : call rules frozen .publish = (.ok (),s.published valid) := by
        rw [call,Lifecycle.requirePhase]
        exact if_neg exhausted
      rw [attempt,published]
      rfl

theorem begin_call (sound : Sound rules s) (idle : s.candidate = none) :
    call rules s .begin_ = (.ok (),s.holding .nativeRegistration rules.empty) := by
  have waiting := sound.idle_iff.mp idle
  rw [call,if_neg (fun other => waiting.elim other.1 other.2),idle]
  rfl

@[simp] theorem andThen_ok (s : Lifecycle ρ) (next : Lifecycle ρ → Except String Unit × Lifecycle ρ) :
    andThen (.ok (),s) next = next s := rfl

@[simp] theorem andThen_error (e : String) (s : Lifecycle ρ) (next : Lifecycle ρ → Except String Unit × Lifecycle ρ) :
    andThen (.error e,s) next = (.error e,s) := rfl

theorem abandon_eq (rules : Rules ρ δ) {u : Lifecycle ρ} (back : u.drop = s) (empty : u.candidate = none → u = s) :
    abandon rules u = s := by
  unfold abandon
  cases there : u.candidate with
  | none => exact empty there
  | some r =>
    rw [Option.isSome_some,if_pos rfl,call,there]
    exact back

theorem advance_idle (sound : Sound rules s) (idle : s.candidate = none) (next : Phase) (rest : List (Call δ)) :
    ∃ e, attempt rules s (.advance next :: rest) = (.error e,s) := by
  have stuck : s.phase.following = none := by
    rcases sound.idle_iff.mp idle with phase | phase <;> rw [phase] <;> rfl
  rw [attempt,call,stuck]
  exact ⟨_,rfl⟩

/-- The script and the end of the bootstrap, from a candidate with the native definitions. -/
theorem staged_run (sound : Sound rules s) (idle : s.candidate = none) (script : Script δ) (thrown : Option String)
    (contents : ρ) :
    let t := andThen (executePreRun rules script thrown (s.holding .preRunRegistration contents))
      (attempt rules · [.advance .validation,.validate,.freeze,.publish])
    (∀ valid, Passes rules script thrown s contents valid → t = (.ok (),s.published valid)) ∧
    ((∀ valid, ¬Passes rules script thrown s contents valid) → ∃ e u, t = (.error e,u) ∧ abandon rules u = s) := by
  have back := sound.drop_eq idle
  have abandoned : abandon rules s = s := abandon_eq rules back fun _ => rfl
  obtain ⟨defines,leaves⟩ := script_run sound idle script contents
  dsimp only [executePreRun]
  by_cases scripted : ∃ built, Registers rules script contents built
  · obtain ⟨built,capable,defined⟩ := scripted
    rw [defines built ⟨capable,defined⟩]
    cases thrown with
    | some e =>
      have dropped : abandon rules (s.holding .preRunRegistration built) = s := abandon_eq rules back nofun
      exact ⟨fun _ passes => absurd passes.returned nofun,fun _ =>
        ⟨e,_,rfl,(congrArg (abandon rules) dropped).trans abandoned⟩⟩
    | none =>
      obtain ⟨publishes,refuses⟩ := publication_run rules s built
      refine ⟨fun valid passes => ?_,fun never => ?_⟩
      · have validated := passes.validated
        rw [defined] at validated
        exact publishes valid passes.generation validated
      obtain ⟨e,refused⟩ := refuses fun ⟨valid,room,validated⟩ => never valid ⟨capable,rfl,room,by rwa [defined]⟩
      exact ⟨e,s,by rw [andThen,refused,back],abandoned⟩
  · rw [leaves (not_exists.mp scripted)]
    refine ⟨fun valid passes => absurd ?_ scripted,fun _ => ?_⟩
    · have validated := passes.validated
      rcases defined : (script.map (·.2.1)).foldlM rules.register contents with e | built
      · rw [defined] at validated
        cases validated
      · exact ⟨built,passes.capable,defined⟩
    · cases thrown with
      | some e => exact ⟨e,_,rfl,(congrArg (abandon rules) abandoned).trans abandoned⟩
      | none =>
        obtain ⟨e,stuck⟩ := @advance_idle _ δ _ _ sound idle .validation [.validate,.freeze,.publish]
        exact ⟨e,s,stuck,abandoned⟩

/-- Definitions are numbers here, a registry takes each once, and needs some to validate. -/
def distinct : Rules (List Nat) Nat where
  empty := []
  registerNative held d := if d ∈ held then .error "Schema identity is already registered" else .ok (held ++ [d])
  register held d := if d ∈ held then .error "Schema identity is already registered" else .ok (held ++ [d])
  validate held := if held = [] then .error "Schema has no definitions" else .ok held

end Gargantuan.RuntimeSchemaLifecycle
