import Mathlib.Logic.Function.Basic

/-!
Tables from keys to values that are altered one key at a time by steps that may fail, and
tables of owners that such a table shows: each owner holds one entry, under a key that no
other owner has.
-/
namespace Gargantuan
open List
open Function (update update_of_ne update_self)

section
variable {α K V E : Type} [DecidableEq K] {key : α → K} {g : α → Option V → Except E (Option V)} {m m' : K → Option V}
  {l : List α} {k : K} {a : α}

/-- A step changes what is under its own key, as far as that allows it. -/
def alter (key : α → K) (g : α → Option V → Except E (Option V)) (m : K → Option V) (a : α) : Except E (K → Option V) :=
  match g a (m (key a)) with
  | .error e => .error e
  | .ok v => .ok (update m (key a) v)

theorem alter_ok (first : alter key g m a = .ok m') : ∃ v, g a (m (key a)) = .ok v ∧ m' = update m (key a) v := by
  unfold alter at first
  split at first
  · cases first
  · next v made =>
    cases first
    exact ⟨v,made,rfl⟩

theorem foldlM_cons_ok (ran : (a :: l).foldlM (alter key g) m = .ok m') :
    ∃ v, g a (m (key a)) = .ok v ∧ l.foldlM (alter key g) (update m (key a) v) = .ok m' := by
  rw [foldlM_cons] at ran
  cases first : alter key g m a with
  | error e =>
    rw [first] at ran
    cases ran
  | ok next =>
    rw [first] at ran
    obtain ⟨v,made,rfl⟩ := alter_ok first
    exact ⟨v,made,ran⟩

section
variable (ran : l.foldlM (alter key g) m = .ok m')
include ran

theorem foldlM_concat {v : Option V} (made : g a (m' (key a)) = .ok v) :
    (l ++ [a]).foldlM (alter key g) m = .ok (update m' (key a) v) := by
  rw [foldlM_append,ran]
  change alter key g m' a >>= pure = _
  unfold alter
  rw [made]
  rfl

theorem foldlM_put (off : k ∉ l.map key) (v : Option V) :
    l.foldlM (alter key g) (update m k v) = .ok (update m' k v) := by
  induction l generalizing m with
  | nil =>
    cases ran
    rfl
  | cons a rest ih =>
    obtain ⟨w,made,later⟩ := foldlM_cons_ok ran
    rw [map_cons,mem_cons,not_or] at off
    obtain ⟨apart,off⟩ := off
    have first : alter key g (update m k v) a = .ok (update (update m (key a) w) k v) := by
      unfold alter
      rw [update_of_ne (Ne.symm apart),made]
      exact congrArg Except.ok (Function.update_comm apart ..)
    rw [foldlM_cons,first]
    exact ih later off

theorem foldlM_frame (off : k ∉ l.map key) : m' k = m k := by
  have same := foldlM_put ran off (m k)
  rw [Function.update_eq_self,ran] at same
  have at_key := congrFun (Except.ok.inj same) k
  rwa [update_self] at at_key

end

variable {P : Option V → Prop}

theorem foldlM_after (each : ∀ {a e v}, g a e = .ok v → P v) (ran : l.foldlM (alter key g) m = .ok m')
    (touched : k ∈ l.map key) : P (m' k) := by
  induction l generalizing m with
  | nil => cases touched
  | cons b rest ih =>
    obtain ⟨v,made,later⟩ := foldlM_cons_ok ran
    by_cases again : k ∈ rest.map key
    · exact ih later again
    · have same : k = key b := (mem_cons.mp touched).resolve_right again
      rw [foldlM_frame later again,same,update_self]
      exact each made

theorem foldlM_before (each : ∀ {a e v}, g a e = .ok v → P e)
    (ran : l.foldlM (alter key g) m = .ok m') (touched : k ∈ l.map key) : P (m k) := by
  induction l generalizing m with
  | nil => cases touched
  | cons b rest ih =>
    obtain ⟨v,made,later⟩ := foldlM_cons_ok ran
    by_cases same : k = key b
    · rw [same]
      exact each made
    · have found := ih later ((mem_cons.mp touched).resolve_left same)
      rwa [update_of_ne same] at found

theorem update_none (absent : m k = none) : update m k none = m := by
  rw [← absent,Function.update_eq_self]

theorem foldlM_filter (fresh : ∀ {a e v}, g a e = .ok v → e = none ∧ v ≠ none) (ran : l.foldlM (alter key g) m = .ok m')
    (absent : m k = none) : (l.filter (key · ≠ k)).foldlM (alter key g) m = .ok (update m' k none) := by
  induction l generalizing m with
  | nil =>
    cases ran
    rw [update_none absent]
    rfl
  | cons a rest ih =>
    obtain ⟨v,made,later⟩ := foldlM_cons_ok ran
    by_cases same : key a = k
    · have once : k ∉ rest.map key := by
        intro again
        have free := foldlM_before (P := (· = none)) (fun made => (fresh made).1) later again
        rw [same,update_self] at free
        exact (fresh made).2 free
      have others : rest.filter (key · ≠ k) = rest := by
        refine filter_eq_self.mpr fun b member => decide_eq_true fun hit => once ?_
        rw [← hit]
        exact mem_map_of_mem member
      have without := foldlM_put later once none
      rw [same,Function.update_idem,update_none absent] at without
      rwa [filter_cons_of_neg (by simp [same]),others]
    · rw [filter_cons_of_pos (by simp [same]),foldlM_cons]
      have first : alter key g m a = .ok (update m (key a) v) := by
        unfold alter
        rw [made]
      rw [first]
      exact ih later ((update_of_ne (.symm same) ..).trans absent)

end

section
variable {A R K V : Type} [DecidableEq A] {identity : R → K} {view : R → V} {P : R → Prop} {z : K → Option V}
  {t : A → Option R} {a b : A} {r q : R}

structure Shows (identity : R → K) (view : R → V) (P : R → Prop) (z : K → Option V) (t : A → Option R) : Prop where
  shown : ∀ {a r}, t a = some r → z (identity r) = some (view r)
  held : ∀ {k}, z k ≠ none → ∃ a r, t a = some r ∧ identity r = k
  single : ∀ {a b r q}, t a = some r → t b = some q → identity r = identity q → a = b
  proper : ∀ {a r}, t a = some r → P r

omit [DecidableEq A] in
theorem Shows.absent {k : K} (s : Shows identity view P z t) (free : ∀ a r, t a = some r → identity r ≠ k) : z k = none := by
  by_contra there
  obtain ⟨a,r,holds,same⟩ := s.held there
  exact free a r holds same

omit [DecidableEq A] in
theorem Shows.iff (s : Shows identity view P z t) (k : K) (e : V) :
    z k = some e ↔ ∃ a r, t a = some r ∧ identity r = k ∧ view r = e := by
  constructor
  · intro there
    obtain ⟨a,r,holds,rfl⟩ := s.held (by rw [there]; exact nofun)
    refine ⟨a,r,holds,rfl,?_⟩
    rw [s.shown holds] at there
    exact Option.some.inj there
  · rintro ⟨a,r,holds,rfl,rfl⟩
    exact s.shown holds

theorem update_some {o : Option R} (holds : update t a o b = some q) : b = a ∧ o = some q ∨ b ≠ a ∧ t b = some q := by
  by_cases same : b = a
  · rw [same,update_self] at holds
    exact .inl ⟨same,holds⟩
  · rw [update_of_ne same] at holds
    exact .inr ⟨same,holds⟩

variable [DecidableEq K]

theorem Shows.put (s : Shows identity view P z t) (absent : t a = none) (free : z (identity r) = none) (proper : P r) :
    Shows identity view P (update z (identity r) (some (view r))) (update t a (some r)) := by
  have other {b : A} {q : R} (holds : t b = some q) : identity q ≠ identity r := by
    intro same
    have shown := s.shown holds
    rw [same,free] at shown
    cases shown
  refine ⟨fun holds => ?_,fun {k} there => ?_,fun holdsA holdsB same => ?_,fun holds => ?_⟩
  · obtain ⟨rfl,⟨⟩⟩ | ⟨-,old⟩ := update_some holds
    · exact update_self ..
    · rw [update_of_ne (other old)]
      exact s.shown old
  · by_cases same : k = identity r
    · exact ⟨a,r,update_self ..,same.symm⟩
    · rw [update_of_ne same] at there
      obtain ⟨b,q,holds,at_key⟩ := s.held there
      refine ⟨b,q,?_,at_key⟩
      rwa [update_of_ne (fun h => by rw [h,absent] at holds; cases holds)]
  · obtain ⟨rfl,⟨⟩⟩ | ⟨-,oldA⟩ := update_some holdsA <;> obtain ⟨rfl,⟨⟩⟩ | ⟨-,oldB⟩ := update_some holdsB
    · rfl
    · exact absurd same.symm (other oldB)
    · exact absurd same (other oldA)
    · exact s.single oldA oldB same
  · obtain ⟨-,⟨⟩⟩ | ⟨-,old⟩ := update_some holds
    · exact proper
    · exact s.proper old

theorem Shows.drop (s : Shows identity view P z t) (holds : t a = some r) :
    Shows identity view P (update z (identity r) none) (update t a none) := by
  have split {b : A} {q : R} (after : update t a none b = some q) : b ≠ a ∧ t b = some q :=
    (update_some after).resolve_left fun gone => nomatch gone.2
  refine ⟨fun after => ?_,fun {k} there => ?_,fun afterA afterB same => s.single (split afterA).2 (split afterB).2 same,
    fun after => s.proper (split after).2⟩
  · obtain ⟨apart,old⟩ := split after
    rw [update_of_ne fun same => apart (s.single old holds same)]
    exact s.shown old
  · by_cases same : k = identity r
    · rw [same,update_self] at there
      exact absurd rfl there
    · rw [update_of_ne same] at there
      obtain ⟨b,q,old,at_key⟩ := s.held there
      refine ⟨b,q,?_,at_key⟩
      rw [update_of_ne (fun h => ?_)]
      · exact old
      · rw [h,holds] at old
        cases old
        exact same at_key.symm

end

end Gargantuan
