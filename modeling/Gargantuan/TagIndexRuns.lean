import Gargantuan.TagIndex
import Gargantuan.Runs

/-!
The maps of the index agree after every run of its operations, whatever fails in them. A state
in the middle of an operation is consistent except for the tags that have still to be released
(`ConsistentOff`); `releaseIfUnused` takes one of them off the list, and what was entered before
a failure leaves nothing behind (`release_restores`).
-/
namespace Gargantuan.TagIndex
open SortedMap List Buckets ReplicationProtocol Nat
variable {ω : Type} [LinearOrder ω]

/-! ### Consistency -/

/-- The maps agree, except that the named tags may be without objects. -/
structure ConsistentOff (ids : List Nat) (t : TagIndex ω) : Prop where
  inverse : ∀ name id, t.nameToId.find? name = some id ↔ t.idToName.find? id = some name
  fresh : ∀ id name, t.idToName.find? id = some name → id ≠ invalidTagId ∧ id < t.nextId
  relation : ∀ object id, t.objectToTags.holds object id = t.tagToObjects.holds id object
  forward : Buckets.Filled t.objectToTags
  reverse : Buckets.FilledOff ids t.tagToObjects
  named : ∀ id object, t.tagToObjects.holds id object = true → ∃ name, t.idToName.find? id = some name
  used : ∀ id name, t.idToName.find? id = some name → id ∈ ids ∨ ∃ object, t.tagToObjects.holds id object = true

abbrev Consistent (t : TagIndex ω) : Prop := ConsistentOff [] t

/-- At most the next identity is a higher one. -/
structure SameMaps (s t : TagIndex ω) : Prop where
  names : t.nameToId = s.nameToId
  ids : t.idToName = s.idToName
  forward : t.objectToTags = s.objectToTags
  reverse : t.tagToObjects = s.tagToObjects
  next : s.nextId ≤ t.nextId

section
variable {s t u v : TagIndex ω} {ids : List Nat} {id : Nat} {object : ω} {name : ByteString} {fault : Option Fault}

theorem SameMaps.refl : SameMaps t t := ⟨rfl,rfl,rfl,rfl,le_rfl⟩

theorem SameMaps.trans (first : SameMaps s t) (second : SameMaps t u) : SameMaps s u :=
  ⟨second.names.trans first.names,second.ids.trans first.ids,second.forward.trans first.forward,
    second.reverse.trans first.reverse,first.next.trans second.next⟩

theorem SameMaps.consistent (same : SameMaps s t) (consistent : ConsistentOff ids s) : ConsistentOff ids t := by
  obtain ⟨names,idNames,forward,reverse,next⟩ := same
  refine ⟨?_,?_,?_,?_,?_,?_,?_⟩
  · rw [names,idNames]
    exact consistent.inverse
  · intro id name found
    rw [idNames] at found
    obtain ⟨valid,below⟩ := consistent.fresh id name found
    exact ⟨valid,below.trans_le next⟩
  · rw [forward,reverse]
    exact consistent.relation
  · rw [forward]
    exact consistent.forward
  · rw [reverse]
    exact consistent.reverse
  · rw [reverse,idNames]
    exact consistent.named
  · rw [reverse,idNames]
    exact consistent.used

theorem isUsed_iff : t.isUsed id ↔ ∃ object, t.tagToObjects.holds id object := by
  unfold isUsed Buckets.holds
  cases t.tagToObjects.find? id with
  | none => simp
  | some objects =>
    rw [Bool.not_eq_true',← Bool.not_eq_true,Buckets.isEmpty_iff]
    push Not
    simp

theorem unused_iff : t.isUsed id = false ↔ ∀ object, t.tagToObjects.holds id object = false := by
  rw [← Bool.not_eq_true,isUsed_iff]
  push Not
  simp

theorem releaseIfUnused_of_isUsed (used : t.isUsed id) : t.releaseIfUnused id = t := if_pos used

theorem releaseIfUnused_of_unused (unused : t.isUsed id = false) :
    (t.releaseIfUnused id).tagToObjects = t.tagToObjects.erase id ∧
    (t.releaseIfUnused id).idToName = t.idToName.erase id ∧
    (t.releaseIfUnused id).nameToId = ((t.idToName.find? id).map t.nameToId.erase).getD t.nameToId := by
  unfold releaseIfUnused
  rw [if_neg (by simp [unused])]
  cases found : t.idToName.find? id with
  | none => exact ⟨rfl,(erase_of_absent found).symm,rfl⟩
  | some name => exact ⟨rfl,rfl,rfl⟩

@[simp] theorem releaseIfUnused_forward (t : TagIndex ω) (id : Nat) :
    (t.releaseIfUnused id).objectToTags = t.objectToTags := by
  unfold releaseIfUnused
  split_ifs
  · rfl
  · cases t.idToName.find? id <;> rfl

@[simp] theorem releaseIfUnused_next (t : TagIndex ω) (id : Nat) : (t.releaseIfUnused id).nextId = t.nextId := by
  unfold releaseIfUnused
  split_ifs
  · rfl
  · cases t.idToName.find? id <;> rfl

theorem releaseIfUnused_reverse (filled : Buckets.FilledOff (id :: ids) t.tagToObjects) :
    Buckets.FilledOff ids (t.releaseIfUnused id).tagToObjects ∧
      ∀ k object, (t.releaseIfUnused id).tagToObjects.holds k object = t.tagToObjects.holds k object := by
  cases used : t.isUsed id with
  | true =>
    rw [releaseIfUnused_of_isUsed used]
    refine ⟨?_,fun _ _ => rfl⟩
    intro k objects found empty
    rcases mem_cons.mp (filled k objects found empty) with rfl | member
    · rw [isUsed,found] at used
      simp [empty] at used
    · exact member
  | false =>
    rw [(releaseIfUnused_of_unused used).1]
    constructor
    · intro k objects found empty
      rw [find?_erase] at found
      split_ifs at found with same
      exact (mem_cons.mp (filled k objects found empty)).resolve_left same
    · intro k object
      rw [holds,find?_erase]
      split_ifs with same
      · rw [same,unused_iff.mp used object]
      · rfl

/-- A tag without objects is released with its name, a tag with objects is as it was. -/
theorem ConsistentOff.release (consistent : ConsistentOff (id :: ids) t) : ConsistentOff ids (t.releaseIfUnused id) := by
  obtain ⟨reverse,same⟩ := releaseIfUnused_reverse consistent.reverse
  have relation : ∀ object k, (t.releaseIfUnused id).objectToTags.holds object k =
      (t.releaseIfUnused id).tagToObjects.holds k object := by
    intro object k
    rw [releaseIfUnused_forward,same,consistent.relation]
  have forward : Buckets.Filled (t.releaseIfUnused id).objectToTags := by
    rw [releaseIfUnused_forward]
    exact consistent.forward
  cases used : t.isUsed id with
  | true =>
    rw [releaseIfUnused_of_isUsed used] at reverse ⊢
    refine { consistent with reverse := reverse, used := ?_ }
    intro k name found
    rcases consistent.used k name found with member | held
    · rcases mem_cons.mp member with rfl | member
      · exact .inr (isUsed_iff.mp used)
      · exact .inl member
    · exact .inr held
  | false =>
    obtain ⟨_,idToName,nameToId⟩ := releaseIfUnused_of_unused used
    have known (k : Nat) (name : ByteString) :
        (t.releaseIfUnused id).idToName.find? k = some name ↔ k ≠ id ∧ t.idToName.find? k = some name := by
      rw [idToName,find?_erase]
      split_ifs with here
      · simp [here]
      · simp [here]
    refine ⟨?_,?_,relation,forward,reverse,?_,?_⟩
    · intro name k
      rw [known,nameToId]
      cases found : t.idToName.find? id with
      | none =>
        rw [Option.map_none,Option.getD_none,consistent.inverse]
        refine ⟨fun here => ⟨?_,here⟩,(·.2)⟩
        rintro rfl
        exact Option.some_ne_none _ (here.symm.trans found)
      | some old =>
        rw [Option.map_some,Option.getD_some,find?_erase]
        have own := (consistent.inverse old id).mpr found
        split_ifs with here
        · subst here
          refine ⟨fun absent => absurd absent nofun,fun other => absurd ?_ other.1⟩
          exact Option.some.inj (((consistent.inverse name k).mpr other.2).symm.trans own)
        · rw [consistent.inverse]
          refine ⟨fun named => ⟨?_,named⟩,(·.2)⟩
          rintro rfl
          exact here (Option.some.inj (named.symm.trans found))
    · intro k name found
      rw [releaseIfUnused_next]
      exact consistent.fresh k name ((known k name).mp found).2
    · intro k object held
      rw [same] at held
      obtain ⟨name,found⟩ := consistent.named k object held
      refine ⟨name,(known k name).mpr ⟨?_,found⟩⟩
      rintro rfl
      exact Bool.false_ne_true ((unused_iff.mp used object).symm.trans held)
    · intro k name found
      obtain ⟨other,found⟩ := (known k name).mp found
      rcases consistent.used k name found with member | ⟨object,held⟩
      · exact .inl ((mem_cons.mp member).resolve_left other)
      · exact .inr ⟨object,by rw [same]; exact held⟩

theorem ConsistentOff.releaseAll (consistent : ConsistentOff ids t) : Consistent (ids.foldl releaseIfUnused t) := by
  induction ids generalizing t with
  | nil => exact consistent
  | cons id rest ih => exact ih consistent.release

theorem intern_error {failure : String} (failed : t.intern name fault = (.error failure,u)) : SameMaps t u := by
  unfold intern at failed
  split_ifs at failed
  all_goals cases failed
  · exact .refl
  · exact .refl
  · exact ⟨rfl,rfl,rfl,rfl,le_succ _⟩

theorem intern_next (t : TagIndex ω) (name : ByteString) (fault : Option Fault) :
    t.nextId ≤ (t.intern name fault).2.nextId := by
  unfold intern
  split_ifs
  · exact le_rfl
  · exact le_rfl
  · exact le_rfl
  · exact le_succ _
  · exact le_succ _

theorem intern_cases (consistent : Consistent t) (done : t.intern name fault = (.ok id,u)) :
    u.objectToTags = t.objectToTags ∧ u.tagToObjects = t.tagToObjects ∧ u.nameToId.find? name = some id ∧
    ConsistentOff [id] u ∧ (u = t ∨ t.nameToId.find? name = none ∧ t.idToName.find? id = none ∧
      u.nameToId = t.nameToId.insert name id ∧ u.idToName = t.idToName.insert id name) := by
  unfold intern at done
  split_ifs at done with known full exhausted failed
  · cases done
    have found : t.nameToId.find? name = some (t.find name) := by
      unfold find at known ⊢
      cases found : t.nameToId.find? name with
      | none => exact absurd (by rw [found]; rfl) known
      | some id => rfl
    refine ⟨rfl,rfl,found,{ consistent with reverse := consistent.reverse.weaken nofun, used := ?_ },.inl rfl⟩
    intro k name here
    exact .inr ((consistent.used k name here).resolve_left not_mem_nil)
  · cases done
  · cases done
  · cases done
  · cases done
    rw [not_or] at exhausted
    have absent : t.nameToId.find? name = none := by
      unfold find at known
      cases found : t.nameToId.find? name with
      | none => rfl
      | some id =>
        rw [found,not_not] at known
        exact absurd known (consistent.fresh id name ((consistent.inverse name id).mp found)).1
    have vacant : t.idToName.find? t.nextId = none := by
      cases found : t.idToName.find? t.nextId with
      | none => rfl
      | some other => exact absurd (consistent.fresh _ other found).2 (lt_irrefl _)
    refine ⟨rfl,rfl,find?_insert_self ..,⟨?_,?_,consistent.relation,consistent.forward,
      consistent.reverse.weaken nofun,?_,?_⟩,.inr ⟨absent,vacant,rfl,rfl⟩⟩
    · intro other k
      rw [find?_insert,find?_insert]
      by_cases name' : other = name
      · subst name'
        rw [if_pos rfl]
        split_ifs with here
        · simp [here]
        · refine ⟨fun same => absurd (Option.some.inj same).symm here,fun known => ?_⟩
          exact absurd (((consistent.inverse other k).mpr known).symm.trans absent) (nofun)
      · rw [if_neg name',consistent.inverse]
        split_ifs with here
        · subst here
          rw [vacant]
          simp [Ne.symm name']
        · rfl
    · intro k other found
      rw [find?_insert] at found
      split_ifs at found with here
      · rw [here]
        exact ⟨exhausted.1,lt_succ_self _⟩
      · obtain ⟨valid,below⟩ := consistent.fresh k other found
        exact ⟨valid,below.trans (lt_succ_self _)⟩
    · intro k object held
      obtain ⟨other,found⟩ := consistent.named k object held
      rw [find?_insert]
      split_ifs
      · exact ⟨name,rfl⟩
      · exact ⟨other,found⟩
    · intro k other found
      rw [find?_insert] at found
      split_ifs at found with here
      · exact .inl (mem_singleton.mpr here)
      · exact .inr ((consistent.used k other found).resolve_left not_mem_nil)

theorem release_restores (consistent : Consistent t) (done : t.intern name fault = (.ok id,u))
    (names : v.nameToId = u.nameToId) (idNames : v.idToName = u.idToName) (next : v.nextId = u.nextId)
    (forward : v.objectToTags = t.objectToTags) (filled : Buckets.FilledOff [id] v.tagToObjects)
    (same : ∀ k o, v.tagToObjects.holds k o = t.tagToObjects.holds k o) : SameMaps t (v.releaseIfUnused id) := by
  have later : t.nextId ≤ (v.releaseIfUnused id).nextId := by
    have later := intern_next t name fault
    rw [done] at later
    rwa [releaseIfUnused_next,next]
  obtain ⟨reverse,holds⟩ := releaseIfUnused_reverse filled
  have reverse : (v.releaseIfUnused id).tagToObjects = t.tagToObjects :=
    ext_holds reverse consistent.reverse fun k o => (holds k o).trans (same k o)
  obtain ⟨_,_,known,_,old | ⟨absent,vacant,nameToId,idToName⟩⟩ := intern_cases consistent done
  · -- A known name has objects, so that it stays.
    rw [old] at names idNames known
    have used : v.isUsed id := by
      obtain ⟨object,held⟩ :=
        (consistent.used id name ((consistent.inverse name id).mp known)).resolve_left not_mem_nil
      exact isUsed_iff.mpr ⟨object,by rw [same]; exact held⟩
    rw [releaseIfUnused_of_isUsed used] at reverse later ⊢
    exact ⟨names,idNames,forward,reverse,later⟩
  · have unused : v.isUsed id = false := by
      refine unused_iff.mpr fun object => ?_
      rw [same,Bool.eq_false_iff]
      intro held
      obtain ⟨other,found⟩ := consistent.named id object held
      exact Option.some_ne_none other (found.symm.trans vacant)
    obtain ⟨_,released,forgotten⟩ := releaseIfUnused_of_unused unused
    refine ⟨?_,?_,?_,reverse,later⟩
    · rw [forgotten,idNames,idToName,find?_insert_self,Option.map_some,Option.getD_some,names,nameToId,
        erase_insert,erase_of_absent absent]
    · rw [released,idNames,idToName,erase_insert,erase_of_absent vacant]
    · rw [releaseIfUnused_forward,forward]

theorem holds_takeObject (m : Buckets Nat ω) (id k : Nat) (object o : ω) :
    (takeObject m id object).holds k o = (decide (¬ (k = id ∧ o = object)) && m.holds k o) := by
  unfold takeObject
  cases found : m.find? id with
  | none =>
    by_cases same : k = id
    · rw [same,holds,found,Bool.and_false]
    · simp [same]
  | some objects =>
    rw [holds,holds,find?_insert]
    by_cases same : k = id
    · rw [if_pos same,same,found]
      dsimp only
      rw [contains_erase]
      simp
    · simp [same]

variable {m : Buckets Nat ω}

theorem filled_takeObject (filled : Buckets.FilledOff ids m) (member : id ∈ ids) (object : ω) :
    Buckets.FilledOff ids (takeObject m id object) := by
  unfold takeObject
  cases found : m.find? id with
  | none => exact filled
  | some objects =>
    intro k bucket here empty
    rw [find?_insert] at here
    split_ifs at here with same
    · rwa [same]
    · exact filled k bucket here empty

structure Enters (u v : TagIndex ω) (object : ω) (id : Nat) (error : Option String) (entered : Entered) : Prop where
  names : v.nameToId = u.nameToId
  ids : v.idToName = u.idToName
  next : v.nextId = u.nextId
  reverse : (entered.reverse = true ∧ u.tagToObjects.holds id object = false ∧
      v.tagToObjects = u.tagToObjects.add id object) ∨
    (entered.reverse = false ∧ error ≠ none ∧
      (v.tagToObjects = u.tagToObjects ∨ v.tagToObjects = u.tagToObjects.opened id))
  forward : (entered.forward = true ∧ error = none ∧ entered.reverse = true ∧ u.objectToTags.holds object id = false ∧
      v.objectToTags = u.objectToTags.add object id) ∨
    (entered.forward = false ∧ error ≠ none ∧ (v.objectToTags = u.objectToTags ∧ entered.forwardMap = false ∨
        v.objectToTags = u.objectToTags.opened object ∧ entered.forwardMap = !u.objectToTags.contains object))

theorem enter_enters (u : TagIndex ω) (context : String) (object : ω) (id : Nat) (fault : Option Fault) :
    Enters u (u.enter context object id fault).2.2 object id (u.enter context object id fault).1
      (u.enter context object id fault).2.1 := by
  unfold enter
  split_ifs with _ _ reverse _ _ forward
  · exact ⟨rfl,rfl,rfl,.inr ⟨rfl,by simp,.inl rfl⟩,.inr ⟨rfl,by simp,.inl ⟨rfl,rfl⟩⟩⟩
  · exact ⟨rfl,rfl,rfl,.inr ⟨rfl,by simp,.inr rfl⟩,.inr ⟨rfl,by simp,.inl ⟨rfl,rfl⟩⟩⟩
  · exact ⟨rfl,rfl,rfl,.inr ⟨rfl,by simp,.inr rfl⟩,.inr ⟨rfl,by simp,.inl ⟨rfl,rfl⟩⟩⟩
  · exact ⟨rfl,rfl,rfl,.inl ⟨rfl,by simpa using reverse,rfl⟩,.inr ⟨rfl,by simp,.inl ⟨rfl,rfl⟩⟩⟩
  · exact ⟨rfl,rfl,rfl,.inl ⟨rfl,by simpa using reverse,rfl⟩,.inr ⟨rfl,by simp,.inr ⟨rfl,rfl⟩⟩⟩
  · exact ⟨rfl,rfl,rfl,.inl ⟨rfl,by simpa using reverse,rfl⟩,.inr ⟨rfl,by simp,.inr ⟨rfl,rfl⟩⟩⟩
  · exact ⟨rfl,rfl,rfl,.inl ⟨rfl,by simpa using reverse,rfl⟩,.inl ⟨rfl,rfl,rfl,by simpa using forward,rfl⟩⟩

variable {entered : Entered} {error : Option String}

theorem Enters.undone (enters : Enters u v object id error entered) (filled : Buckets.FilledOff [id] u.tagToObjects) :
    Buckets.FilledOff [id] (if entered.reverse = true then takeObject v.tagToObjects id object else v.tagToObjects) ∧
      ∀ k o, (if entered.reverse = true then takeObject v.tagToObjects id object else v.tagToObjects).holds k o =
        u.tagToObjects.holds k o := by
  rcases enters.reverse with ⟨yes,absent,added⟩ | ⟨no,_,same | opened⟩
  · rw [if_pos yes,added]
    refine ⟨filled_takeObject (filled_add filled _ _) (.head _) object,fun k o => ?_⟩
    rw [holds_takeObject,holds_add]
    by_cases here : k = id ∧ o = object
    · rw [here.1,here.2,absent]
      simp
    · simp [here]
  · rw [if_neg (by simp [no]),same]
    exact ⟨filled,fun _ _ => rfl⟩
  · rw [if_neg (by simp [no]),opened]
    exact ⟨filled_opened filled (.head _),fun k o => holds_opened ..⟩

theorem opened_of_contains {m : Buckets ω Nat} (known : m.contains object) : m.opened object = m := if_pos known

theorem erase_opened {m : Buckets ω Nat} (absent : m.contains object = false) : (m.opened object).erase object = m := by
  have none : m.find? object = none := by simpa [SortedMap.contains] using absent
  rw [opened,if_neg (by simp [absent]),erase_insert,erase_of_absent none]

section
variable (consistent : Consistent t)
include consistent

section
variable (done : t.intern name fault = (.ok id,u))
include done

theorem withdraw_restores
    (enters : Enters u v object id error entered) :
    SameMaps t (v.withdraw entered object id) := by
  obtain ⟨forward,reverse,_,here,_⟩ := intern_cases consistent done
  obtain ⟨filled,same⟩ := enters.undone here.reverse
  refine release_restores consistent done enters.names enters.ids enters.next ?_ filled fun k o => (same k o).trans ?_
  · dsimp only
    rcases enters.forward with ⟨yes,_,_,absent,added⟩ | ⟨no,_,⟨unchanged,none⟩ | ⟨opened,opens⟩⟩
    · rw [if_pos yes,added,forward]
      rw [forward] at absent
      exact drop_add consistent.forward absent
    · rw [if_neg (by simp [no]),if_neg (by simp [none]),unchanged,forward]
    · rw [if_neg (by simp [no]),opened,opens,forward]
      cases known : t.objectToTags.contains object with
      | true => exact opened_of_contains known
      | false => exact erase_opened known
  · rw [reverse]

theorem retreat_restores {failure : String}
    (enters : Enters u v object id (some failure) entered) : SameMaps t (v.retreat entered object id) := by
  obtain ⟨forward,reverse,_,here,_⟩ := intern_cases consistent done
  obtain ⟨filled,same⟩ := enters.undone here.reverse
  refine release_restores consistent done enters.names enters.ids enters.next ?_ filled fun k o => (same k o).trans ?_
  · have unchanged : eraseIfEmpty t.objectToTags object = t.objectToTags := by
      unfold eraseIfEmpty
      cases found : t.objectToTags.find? object with
      | none => rfl
      | some tags =>
        dsimp only
        rw [if_neg]
        exact fun empty => not_mem_nil (consistent.forward object tags found empty)
    rcases enters.forward with ⟨_,absent,_⟩ | ⟨_,_,⟨same,_⟩ | ⟨opened,_⟩⟩
    · cases absent
    · rwa [same,forward]
    · rw [opened,forward]
      cases known : t.objectToTags.contains object with
      | true =>
        rwa [opened_of_contains known]
      | false =>
        have empty : (t.objectToTags.opened object).find? object = some ∅ := by
          have none : t.objectToTags.find? object = none := by simpa [SortedMap.contains] using known
          rw [find?_opened,if_pos rfl,none,Option.getD_none]
        rw [eraseIfEmpty,empty]
        exact erase_opened known
  · rw [reverse]

theorem enter_consistent
    (enters : Enters u v object id none entered) : Consistent v ∧ SameMaps t (v.takeBack object id) := by
  obtain ⟨forward,reverse,known,here,_⟩ := intern_cases consistent done
  rcases enters.forward with ⟨_,_,yes,absent,added⟩ | ⟨_,failed,_⟩
  · rcases enters.reverse with ⟨_,vacant,filed⟩ | ⟨_,failed,_⟩
    · have held (k : Nat) (o : ω) :
          v.tagToObjects.holds k o = (decide (k = id ∧ o = object) || u.tagToObjects.holds k o) := by
        rw [filed,holds_add]
      refine ⟨⟨?_,?_,?_,?_,?_,?_,?_⟩,?_⟩
      · rw [enters.names,enters.ids]
        exact here.inverse
      · rw [enters.ids,enters.next]
        exact here.fresh
      · intro o k
        rw [held,added,holds_add,here.relation]
        simp [and_comm]
      · rw [added]
        exact filled_add here.forward _ _
      · intro k objects found empty
        have there := filled_add here.reverse id object
        rw [← filed] at there
        have same := mem_singleton.mp (there k objects found empty)
        have inside : v.tagToObjects.holds k object := by
          rw [held,same]
          simp
        rw [holds,found] at inside
        exact absurd inside (by simp [isEmpty_iff.mp empty object])
      · intro k o inside
        rw [held,Bool.or_eq_true] at inside
        rw [enters.ids]
        rcases inside with last | before
        · exact ⟨name,by rw [(of_decide_eq_true last).1]; exact (here.inverse name id).mp known⟩
        · exact here.named k o before
      · intro k other found
        rw [enters.ids] at found
        right
        rcases here.used k other found with member | ⟨o,before⟩
        · exact ⟨object,by rw [held,mem_singleton.mp member]; simp⟩
        · exact ⟨o,by rw [held,before,Bool.or_true]⟩
      · obtain ⟨filled,same⟩ := enters.undone here.reverse
        rw [if_pos yes] at filled same
        refine release_restores consistent done enters.names enters.ids enters.next ?_ filled fun k o => ?_
        · dsimp only
          rw [added,forward]
          rw [forward] at absent
          exact drop_add consistent.forward absent
        · dsimp only
          rw [same,reverse]
    · exact absurd rfl failed
  · exact absurd rfl failed

end

theorem takeBack_consistent (object : ω) (id : Nat) : Consistent (t.takeBack object id) := by
  refine .release (?_ : ConsistentOff [id] _)
  refine ⟨consistent.inverse,consistent.fresh,?_,?_,?_,?_,?_⟩
  · intro o k
    rw [holds_drop,holds_takeObject,consistent.relation]
    simp [and_comm]
  · exact filled_drop (consistent.forward.weaken nofun) id
  · exact filled_takeObject (consistent.reverse.weaken nofun) (.head _) object
  · intro k o held
    rw [holds_takeObject,Bool.and_eq_true] at held
    exact consistent.named k o held.2
  · intro k name found
    obtain ⟨o,held⟩ := (consistent.used k name found).resolve_left not_mem_nil
    by_cases same : k = id
    · exact .inl (mem_singleton.mpr same)
    · refine .inr ⟨o,?_⟩
      rw [holds_takeObject,held]
      simp [same]

end

/-! ### Operations -/

theorem releaseIfUnused_same (same : SameMaps s t) (id : Nat) :
    SameMaps (s.releaseIfUnused id) (t.releaseIfUnused id) := by
  have usage : t.isUsed id = s.isUsed id := by rw [isUsed,same.reverse,isUsed]
  cases used : s.isUsed id with
  | true =>
    rwa [releaseIfUnused_of_isUsed used,releaseIfUnused_of_isUsed (usage.trans used)]
  | false =>
    obtain ⟨reverse,ids,names⟩ := releaseIfUnused_of_unused used
    obtain ⟨reverse',ids',names'⟩ := releaseIfUnused_of_unused (usage.trans used)
    refine ⟨?_,?_,?_,?_,?_⟩
    · rw [names,names',same.names,same.ids]
    · rw [ids,ids',same.ids]
    · rw [releaseIfUnused_forward,releaseIfUnused_forward,same.forward]
    · rw [reverse,reverse',same.reverse]
    · rw [releaseIfUnused_next,releaseIfUnused_next]
      exact same.next

theorem takeBack_same (same : SameMaps s t) (object : ω) (id : Nat) :
    SameMaps (s.takeBack object id) (t.takeBack object id) := by
  refine releaseIfUnused_same ?_ id
  refine ⟨same.names,same.ids,?_,?_,same.next⟩
  · dsimp only
    rw [same.forward]
  · dsimp only
    rw [same.reverse]

theorem adoptAll_cases (consistent : Consistent t) (inserted : List (ω × Nat))
    (pairs : List ((ω × ByteString) × Option Fault)) :
    ((t.adoptAll inserted pairs).1 = none → Consistent (t.adoptAll inserted pairs).2.2) ∧
    ∃ fresh, (t.adoptAll inserted pairs).2.1 = fresh ++ inserted ∧
      SameMaps t (fresh.foldl (fun u p => u.takeBack p.1 p.2) (t.adoptAll inserted pairs).2.2) := by
  induction pairs generalizing t inserted with
  | nil => exact ⟨fun _ => consistent,[],rfl,.refl⟩
  | cons pair rest ih =>
    obtain ⟨⟨object,name⟩,fault⟩ := pair
    unfold adoptAll
    rcases interned : t.intern name fault with ⟨failure | id,u⟩
    · exact ⟨fun none => absurd none nofun,[],rfl,intern_error interned⟩
    · have enters := enter_enters u "Detached tag" object id fault
      rcases entered : u.enter "Detached tag" object id fault with ⟨_ | failure,progress,v⟩
      · rw [entered] at enters
        obtain ⟨consistent',restores⟩ := enter_consistent consistent interned enters
        obtain ⟨finished,fresh,listed,back⟩ := ih consistent' ((object,id) :: inserted)
        dsimp only
        rw [entered]
        refine ⟨finished,fresh ++ [(object,id)],by rw [listed,append_assoc,singleton_append],?_⟩
        rw [foldl_append]
        exact restores.trans (takeBack_same back object id)
      · rw [entered] at enters
        dsimp only
        rw [entered]
        exact ⟨fun none => absurd none nofun,[],rfl,retreat_restores consistent interned enters⟩

def Keeps {α : Type} (t : TagIndex ω) (r : Except String α × TagIndex ω) : Prop :=
  Consistent r.2 ∧ ∀ failure, r.1 = .error failure → SameMaps t r.2

variable {α : Type}

theorem Keeps.unchanged (consistent : Consistent t) (r : Except String α) : Keeps t (r,t) :=
  ⟨consistent,fun _ _ => .refl⟩

theorem Keeps.failed (consistent : Consistent t) (same : SameMaps t u) (r : Except String α) : Keeps t (r,u) :=
  ⟨same.consistent consistent,fun _ _ => same⟩

theorem Keeps.done (consistent : Consistent u) (x : α) : Keeps t (.ok x,u) :=
  ⟨consistent,fun _ error => by cases error⟩

theorem add_keeps (consistent : Consistent t) (call : Call ω) (object : ω) (name : ByteString) :
    Keeps t (t.add call object name) := by
  have unchanged (r : Except String Bool) : Keeps t (r,t) := .unchanged consistent r
  unfold add
  split
  · exact unchanged _
  · exact unchanged _
  · split
    · exact unchanged _
    · split
      · exact unchanged _
      · split
        · exact unchanged _
        · split
          · exact unchanged _
          · next failure u _ interned => exact .failed consistent (intern_error interned) _
          · next id u _ interned =>
            have enters := enter_enters u "Tag" object id call.fault
            split
            · next failure progress v entered =>
              rw [entered] at enters
              exact .failed consistent (withdraw_restores consistent interned enters) _
            · next progress v entered =>
              rw [entered] at enters
              split
              · exact .failed consistent (withdraw_restores consistent interned enters) _
              · exact .done (enter_consistent consistent interned enters).1 _

theorem remove_keeps (consistent : Consistent t) (call : Call ω) (object : ω) (name : ByteString) :
    Keeps t (t.remove call object name) := by
  have unchanged (r : Except String Bool) : Keeps t (r,t) := .unchanged consistent r
  unfold remove
  split
  · exact unchanged _
  · exact unchanged _
  · split
    · exact unchanged _
    · split
      · exact unchanged _
      · split
        · exact unchanged _
        · split
          · exact unchanged _
          · split
            · exact unchanged _
            · exact .done (takeBack_consistent consistent object _) _

theorem holds_takeAll (l : List Nat) (m : Buckets Nat ω) (object : ω) (k : Nat) (o : ω) :
    (l.foldl (fun m id => takeObject m id object) m).holds k o = (decide (¬ (k ∈ l ∧ o = object)) && m.holds k o) := by
  induction l generalizing m with
  | nil => simp
  | cons id rest ih =>
    rw [foldl_cons,ih,holds_takeObject]
    by_cases here : o = object <;> by_cases same : k = id <;> simp [here,same]

theorem filled_takeAll (filled : Buckets.FilledOff ids m) (object : ω) :
    ∀ l ⊆ ids, Buckets.FilledOff ids (l.foldl (fun m id => takeObject m id object) m) := by
  intro l within
  induction l generalizing m with
  | nil => exact filled
  | cons id rest ih =>
    exact ih (filled_takeObject filled (within (.head _)) object)
      fun _ member => within (.tail _ member)

theorem removeAll_keeps (consistent : Consistent t) (call : Call ω) (object : ω) (publishChanges : Bool) :
    Keeps t (t.removeAll call object publishChanges) := by
  have unchanged (r : Except String (List ByteString)) : Keeps t (r,t) := .unchanged consistent r
  unfold removeAll
  split
  · exact unchanged _
  · exact unchanged _
  · next tags _ found =>
    dsimp only
    split
    · exact unchanged _
    · split_ifs
      · exact unchanged _
      · exact unchanged _
      · refine .done (.releaseAll ?_) _
        refine ⟨consistent.inverse,consistent.fresh,?_,?_,?_,?_,?_⟩
        · intro o k
          rw [holds_takeAll,← consistent.relation,holds,find?_erase]
          by_cases same : o = object
          · -- Its tags are those that it is taken from.
            rw [same,holds,found]
            cases inside : tags.contains k with
            | true => simp [contains_iff_mem_keys.mp inside,inside]
            | false => simp [inside]
          · rw [if_neg same]
            simp [same,holds]
        · intro o bucket here empty
          rw [find?_erase] at here
          split_ifs at here
          exact consistent.forward o bucket here empty
        · exact filled_takeAll (consistent.reverse.weaken (by simp)) object _ (.refl _)
        · intro k o held
          rw [holds_takeAll,Bool.and_eq_true] at held
          exact consistent.named k o held.2
        · intro k name known
          obtain ⟨o,held⟩ := (consistent.used k name known).resolve_left not_mem_nil
          by_cases member : k ∈ tags.keys
          · exact .inl member
          · refine .inr ⟨o,?_⟩
            rw [holds_takeAll,held]
            simp [member]

theorem adoptDetached_keeps (consistent : Consistent t) (call : Call ω) (memberships : List (ω × List ByteString))
    (faults : Nat → Option Fault) : Keeps t (t.adoptDetached call memberships faults) := by
  have unchanged (r : Except String Unit) : Keeps t (r,t) := .unchanged consistent r
  unfold adoptDetached
  split
  · exact unchanged _
  · split_ifs
    · exact unchanged _
    · split
      · exact unchanged _
      · dsimp only
        have cases := adoptAll_cases consistent []
          ((memberships.flatMap fun m => m.2.map fun name => (m.1,name)).zipIdx.map fun p => (p.1,faults p.2))
        split
        · next inserted u adopted =>
          rw [adopted] at cases
          exact .done (cases.1 rfl) _
        · next failure inserted u adopted =>
          rw [adopted] at cases
          obtain ⟨_,fresh,listed,back⟩ := cases
          rw [append_nil] at listed
          rw [← listed] at back
          exact .failed consistent back _

def carries (t : TagIndex ω) (object : ω) (name : ByteString) : Prop :=
  ∃ id, t.nameToId.find? name = some id ∧ t.objectToTags.holds object id = true

theorem mem_unique {ids : List Nat} : id ∈ unique ids ↔ id ∈ ids := by
  fun_induction unique ids with
  | case1 => rfl
  | case2 => rfl
  | case3 rest next ih =>
    rw [ih]
    simp
  | case4 first next rest other ih =>
    rw [mem_cons,ih]
    simp

theorem smallest_mem (t : TagIndex ω) (id : Nat) (ids : List Nat) : t.smallest id ids ∈ id :: ids := by
  unfold smallest
  induction ids generalizing id with
  | nil => exact (.head _)
  | cons next rest ih =>
    rw [foldl_cons]
    split_ifs
    · exact mem_cons_of_mem id (ih next)
    · rcases mem_cons.mp (ih id) with first | later
      · exact mem_cons.mpr (.inl first)
      · exact mem_cons_of_mem id (mem_cons_of_mem next later)

theorem contains_objectsOf (t : TagIndex ω) (id : Nat) (object : ω) :
    (t.objectsOf id).contains object = t.tagToObjects.holds id object := by
  unfold objectsOf holds
  cases t.tagToObjects.find? id <;> rfl

variable {names : List ByteString}

theorem findAll_cases (t : TagIndex ω) (valid : ∀ name ∈ names, validateTagName name = .ok ()) :
    (t.findAll names = .ok (some (names.map t.find)) ∧ ∀ name ∈ names, t.find name ≠ invalidTagId) ∨
    (t.findAll names = .ok none ∧ ∃ name ∈ names, t.find name = invalidTagId) := by
  induction names with
  | nil => exact .inl ⟨rfl,fun _ member => absurd member not_mem_nil⟩
  | cons name rest ih =>
    unfold findAll
    rw [valid name (.head _)]
    by_cases unknown : t.find name = invalidTagId
    · rw [if_pos unknown]
      exact .inr ⟨rfl,name,.head _,unknown⟩
    · rw [if_neg unknown]
      rcases ih fun name member => valid name (.tail _ member) with ⟨found,known⟩ | ⟨missing,other⟩
      · left
        rw [found]
        refine ⟨rfl,?_⟩
        intro other member
        rcases mem_cons.mp member with rfl | later
        · exact unknown
        · exact known other later
      · right
        obtain ⟨other,member,absent⟩ := other
        rw [missing]
        exact ⟨rfl,other,.tail _ member,absent⟩

theorem carries_iff (consistent : Consistent t) : t.carries object name ↔
    t.find name ≠ invalidTagId ∧ t.tagToObjects.holds (t.find name) object := by
  unfold carries find
  cases found : t.nameToId.find? name with
  | none => simp
  | some id =>
    have valid := (consistent.fresh id name ((consistent.inverse name id).mp found)).1
    rw [← consistent.relation]
    constructor
    · rintro ⟨other,same,held⟩
      rw [Option.some.inj same]
      exact ⟨by rwa [← Option.some.inj same],held⟩
    · rintro ⟨_,held⟩
      exact ⟨id,rfl,held⟩

theorem getTaggedAll_exact (consistent : Consistent t) {call : Call ω} (permitted : call.refusal = none)
    (some : names ≠ []) (few : names.length ≤ maximumTagsPerQuery)
    (valid : ∀ name ∈ names, validateTagName name = .ok ()) :
    ∃ objects, t.getTaggedAll call names = .ok objects ∧ objects.Pairwise (· < ·) ∧
      ∀ object, object ∈ objects ↔ call.isLive object ∧ ∀ name ∈ names, t.carries object name := by
  have listed : names.isEmpty = false := by simpa using some
  unfold getTaggedAll
  rw [permitted]
  rw [if_neg (by simp [listed]),if_neg (by omega)]
  rcases findAll_cases t valid with ⟨found,known⟩ | ⟨missing,name,member,absent⟩
  · rw [found]
    dsimp only
    have mem (id : Nat) : id ∈ unique ((names.map t.find).mergeSort fun a b => decide (a ≤ b)) ↔
        ∃ name ∈ names, t.find name = id := by
      rw [mem_unique,mem_mergeSort,mem_map]
    cases sorted : unique ((names.map t.find).mergeSort fun a b => decide (a ≤ b)) with
    | nil =>
      obtain ⟨name,member⟩ := exists_mem_of_ne_nil names some
      have inside := (mem (t.find name)).mpr ⟨name,member,rfl⟩
      rw [sorted] at inside
      exact absurd inside not_mem_nil
    | cons id rest =>
      rw [sorted] at mem
      refine ⟨_,rfl,?_,fun object => ?_⟩
      · have ascending := (t.objectsOf (t.smallest id rest)).sorted
        exact (pairwise_map.mpr ascending).filter _
      · rw [mem_filter,Bool.and_eq_true,all_eq_true]
        constructor
        · rintro ⟨_,live,all⟩
          refine ⟨live,fun name member => (carries_iff consistent).mpr ⟨known name member,?_⟩⟩
          rw [← contains_objectsOf]
          exact all _ ((mem (t.find name)).mpr ⟨name,member,rfl⟩)
        · rintro ⟨live,carried⟩
          have all : ∀ k ∈ id :: rest, (t.objectsOf k).contains object := by
            intro k member
            obtain ⟨name,among,rfl⟩ := (mem k).mp member
            rw [contains_objectsOf]
            exact ((carries_iff consistent).mp (carried name among)).2
          refine ⟨?_,live,all⟩
          exact contains_iff_mem_keys.mp (all _ (smallest_mem t id rest))
  · rw [missing]
    refine ⟨[],rfl,.nil,fun object => ?_⟩
    refine ⟨fun inside => absurd inside not_mem_nil,fun carried => ?_⟩
    exact absurd absent ((carries_iff consistent).mp (carried.2 name member)).1

end

inductive Event (ω : Type) where
  | add (call : Call ω) (object : ω) (name : ByteString)
  | remove (call : Call ω) (object : ω) (name : ByteString)
  | removeAll (call : Call ω) (object : ω) (publishChanges : Bool)
  | adoptDetached (call : Call ω) (memberships : List (ω × List ByteString)) (faults : Nat → Option Fault)

/-- Whether an operation throws. -/
def isError {α : Type} : Except String α → Bool
  | .error _ => true
  | .ok _ => false

def operate (t : TagIndex ω) : Event ω → Bool × TagIndex ω
  | .add call object name => (isError (t.add call object name).1,(t.add call object name).2)
  | .remove call object name => (isError (t.remove call object name).1,(t.remove call object name).2)
  | .removeAll call object publishChanges =>
    (isError (t.removeAll call object publishChanges).1,(t.removeAll call object publishChanges).2)
  | .adoptDetached call memberships faults =>
    (isError (t.adoptDetached call memberships faults).1,(t.adoptDetached call memberships faults).2)

def step (t : TagIndex ω) (e : Event ω) : Option (TagIndex ω) := some (t.operate e).2

theorem Keeps.thrown {α : Type} {t : TagIndex ω} {r : Except String α × TagIndex ω} (keeps : Keeps t r)
    (thrown : isError r.1) : SameMaps t r.2 := by
  cases result : r.1 with
  | ok x =>
    rw [result] at thrown
    cases thrown
  | error failure => exact keeps.2 failure result

theorem operate_keeps {t : TagIndex ω} (consistent : Consistent t) (e : Event ω) :
    Consistent (t.operate e).2 ∧ ((t.operate e).1 → SameMaps t (t.operate e).2) := by
  cases e with
  | add call object name =>
    have keeps := add_keeps consistent call object name
    exact ⟨keeps.1,keeps.thrown⟩
  | remove call object name =>
    have keeps := remove_keeps consistent call object name
    exact ⟨keeps.1,keeps.thrown⟩
  | removeAll call object publishChanges =>
    have keeps := removeAll_keeps consistent call object publishChanges
    exact ⟨keeps.1,keeps.thrown⟩
  | adoptDetached call memberships faults =>
    have keeps := adoptDetached_keeps consistent call memberships faults
    exact ⟨keeps.1,keeps.thrown⟩

theorem consistent_new : Consistent ({} : TagIndex ω) := by
  refine ⟨fun _ _ => ⟨fun found => ?_,fun found => ?_⟩,fun _ _ found => ?_,fun _ _ => rfl,fun _ _ found _ => ?_,
    fun _ _ found _ => ?_,fun _ _ held => ?_,fun _ _ found => ?_⟩
  all_goals first | cases found | cases held

/-- The maps agree, what throws leaves them as they were, and a query for all of some names is exact. -/
theorem tags_run {events : List (Event ω)} {t : TagIndex ω} (reached : run step ({} : TagIndex ω) events = some t) :
    (∀ object id, t.objectToTags.holds object id = t.tagToObjects.holds id object) ∧
    (∀ name id, t.nameToId.find? name = some id ↔ t.idToName.find? id = some name) ∧
    (∀ id, (∃ name, t.idToName.find? id = some name) ↔ ∃ object, t.tagToObjects.holds id object = true) ∧
    (∀ e, (t.operate e).1 = true →
      (t.operate e).2.objectToTags = t.objectToTags ∧ (t.operate e).2.tagToObjects = t.tagToObjects ∧
      (t.operate e).2.nameToId = t.nameToId ∧ (t.operate e).2.idToName = t.idToName) ∧
    ∀ (call : Call ω) (names : List ByteString), call.refusal = none → names ≠ [] → names.length ≤ maximumTagsPerQuery →
      (∀ name ∈ names, ReplicationProtocol.validateTagName name = .ok ()) →
        ∃ objects, t.getTaggedAll call names = .ok objects ∧ objects.Pairwise (· < ·) ∧
          ∀ object, object ∈ objects ↔ call.isLive object = true ∧ ∀ name ∈ names, t.carries object name := by
  have preserved (s : TagIndex ω) (e : Event ω) (u : TagIndex ω) (consistent : Consistent s)
      (stepped : step s e = some u) : Consistent u := by
    cases stepped
    exact (operate_keeps consistent e).1
  have consistent : Consistent t := run_preserves preserved consistent_new reached
  refine ⟨consistent.relation,consistent.inverse,fun id => ⟨?_,?_⟩,?_,?_⟩
  · rintro ⟨name,found⟩
    exact (consistent.used id name found).resolve_left not_mem_nil
  · rintro ⟨object,held⟩
    exact consistent.named id object held
  · intro e thrown
    have same := (operate_keeps consistent e).2 thrown
    exact ⟨same.forward,same.reverse,same.names,same.ids⟩
  · intro call names permitted some few valid
    exact getTaggedAll_exact consistent permitted some few valid

/-- Two objects carry one tag, one of them another as well. -/
def twoTagged : List (Event Nat) :=
  [.add {} 8 [65],.add {} 7 [65],.add {} 7 [66],.add { fault := some .commit } 8 [66]]

theorem tags_twoTagged : ∃ t, run step ({} : TagIndex Nat) twoTagged = some t ∧ t.idToName.size = 2 ∧
    ∃ objects, t.getTaggedAll {} [[66], [65], [66]] = .ok objects ∧ 7 ∈ objects := by
  obtain ⟨t,reached⟩ : ∃ t, run step ({} : TagIndex Nat) twoTagged = some t := ⟨_,rfl⟩
  have size : ((run step ({} : TagIndex Nat) twoTagged).map fun t => t.idToName.size) = some 2 := by decide +kernel
  have tags : ((run step ({} : TagIndex Nat) twoTagged).map fun t =>
      (t.nameToId.find? [65],t.nameToId.find? [66],t.objectToTags.holds 7 1,t.objectToTags.holds 7 2)) =
    some (some 1,some 2,true,true) := by decide +kernel
  rw [reached] at size tags
  obtain ⟨objects,found,_,exact⟩ :=
    (tags_run reached).2.2.2.2 {} [[66],[65],[66]] rfl nofun (by decide) (by decide +kernel)
  obtain ⟨first,second,one,two⟩ : t.nameToId.find? [65] = some 1 ∧ t.nameToId.find? [66] = some 2 ∧
      t.objectToTags.holds 7 1 = true ∧ t.objectToTags.holds 7 2 = true := by simpa using tags
  refine ⟨t,reached,Option.some.inj size,objects,found,(exact 7).mpr ⟨rfl,fun name member => ?_⟩⟩
  have either : name = [66] ∨ name = [65] ∨ name = [66] := by simpa using member
  rcases either with rfl | rfl | rfl
  · exact ⟨2,second,two⟩
  · exact ⟨1,first,one⟩
  · exact ⟨2,second,two⟩

/-- A query for no name finds nothing, although every object carries all of no names. -/
theorem getTaggedAll_of_no_name : ∃ t, run step ({} : TagIndex Nat) twoTagged = some t ∧
    t.getTaggedAll {} [] = .ok [] ∧ ¬ ∀ object, object ∈ ([] : List Nat) ↔
      ({} : Call Nat).isLive object = true ∧ ∀ name ∈ ([] : List ByteString), t.carries object name := by
  refine ⟨_,rfl,rfl,fun exact => ?_⟩
  exact not_mem_nil ((exact 7).mpr ⟨rfl,fun _ member => absurd member not_mem_nil⟩)

end Gargantuan.TagIndex
