import Gargantuan.ReplicaCandidate

/-!
When the validation of a frame ends. A removal visits what is below the removed object;
as a child has one parent only, the visit ends if and only if the object is not its own
ancestor, and then visits each object once. Earlier operations of the frame can make an
object its own ancestor, since parents are checked for presence only: the validation of
a frame ends if and only if no removal that is reached removes such an object
(`applyFrame_ends_iff`).
-/
namespace Gargantuan
open SortedMap List EmptyCollection Nat
namespace ReplicaApplier
open Worklist (visit Below)

def kids (children : SortedMap ObjectId (SortedMap ObjectId Unit)) (p : ObjectId) : List ObjectId :=
  ((children.find? p).getD ∅).keys

variable {x : ObjectId} {id p : ObjectId} {children : SortedMap ObjectId (SortedMap ObjectId Unit)}

variable {m : SortedMap ObjectId Unit}

theorem mem_keys_insert : x ∈ (m.insert id ()).keys ↔ x ∈ m.keys ∨ x = id := by
  rw [SortedMap.mem_keys,SortedMap.mem_keys,find?_insert]
  by_cases here : x = id
  · simp [here]
  · simp [here]

theorem mem_keys_erase : x ∈ (m.erase id).keys ↔ x ∈ m.keys ∧ x ≠ id := by
  rw [SortedMap.mem_keys,SortedMap.mem_keys,find?_erase]
  by_cases here : x = id
  · simp [here]
  · simp [here]

variable {parent : Option ObjectId}

theorem mem_insertChild :
    x ∈ kids (insertChild children parent id) p ↔ x ∈ kids children p ∨ parent = some p ∧ x = id := by
  cases parent with
  | none => simp [insertChild]
  | some q =>
    rw [insertChild,kids,find?_insert]
    by_cases here : p = q
    · rw [if_pos here,Option.getD_some,mem_keys_insert,here]
      simp [kids]
    · rw [if_neg here]
      simp [kids,Ne.symm here]

theorem mem_eraseChild :
    x ∈ kids (eraseChild children parent id) p ↔ x ∈ kids children p ∧ ¬(parent = some p ∧ x = id) := by
  cases parent with
  | none => simp [eraseChild]
  | some q =>
    rw [eraseChild,kids,find?_insert]
    by_cases here : p = q
    · rw [if_pos here,Option.getD_some,mem_keys_erase,here]
      simp [kids]
    · rw [if_neg here]
      simp [kids,Ne.symm here]

theorem mem_kids_erase {r : ObjectId} : x ∈ kids (children.erase r) p ↔ p ≠ r ∧ x ∈ kids children p := by
  rw [kids,find?_erase]
  by_cases here : p = r
  · rw [here]
    simp [SortedMap.mem_keys,find?_eq_some,emptyCollection,SortedMap.empty]
  · rw [if_neg here]
    simp [kids,here]

section
variable {Content Receiver : Type} {c d : Candidate Content}

namespace Candidate

def parentOf (c : Candidate Content) (id : ObjectId) : Option ObjectId := (c.find id).bind fun e => e.2.parent

def OwnAncestor (c : Candidate Content) (id : ObjectId) : Prop :=
  Relation.TransGen (fun p x => c.parentOf x = some p) id id

structure Linked (c : Candidate Content) : Prop where
  placed : ∀ id place, c.index.find? id = some place → ∃ object, c.objects[place]? = some object ∧ object.id = id
  children : ∀ p x, x ∈ c.childrenOf p ↔ c.parentOf x = some p

variable {id x : ObjectId} {object : SnapshotObject Content} {place : Nat}

theorem find_eq_some :
    c.find id = some (place,object) ↔ c.index.find? id = some place ∧ c.objects[place]? = some object := by
  simp only [find,Option.bind_eq_some_iff,Option.map_eq_some_iff,Prod.mk.injEq]
  constructor
  · rintro ⟨_,indexed,_,there,rfl,rfl⟩
    exact ⟨indexed,there⟩
  · rintro ⟨indexed,there⟩
    exact ⟨place,indexed,object,there,rfl,rfl⟩

variable {p : ObjectId} {objects : List (SnapshotObject Content)}

theorem parentOf_eq_some :
    c.parentOf id = some p ↔ ∃ place object, c.find id = some (place,object) ∧ object.parent = some p := by
  simp only [parentOf,Option.bind_eq_some_iff,Prod.exists]

theorem Linked.find (linked : c.Linked) (indexed : c.index.find? id = some place) :
    ∃ object, c.find id = some (place,object) ∧ object.id = id := by
  obtain ⟨object,there,same⟩ := linked.placed id place indexed
  exact ⟨object,find_eq_some.mpr ⟨indexed,there⟩,same⟩

theorem Linked.find_eq_none (linked : c.Linked) (absent : c.find id = none) : c.index.find? id = none := by
  cases indexed : c.index.find? id with
  | none => rfl
  | some place =>
    obtain ⟨object,found,-⟩ := linked.find indexed
    rw [absent] at found
    cases found

theorem Linked.id_eq (linked : c.Linked) (found : c.find id = some (place,object)) : object.id = id := by
  obtain ⟨indexed,there⟩ := find_eq_some.mp found
  obtain ⟨object',there',same⟩ := linked.placed id place indexed
  rw [there] at there'
  cases there'
  exact same

theorem below_iff (linked : c.Linked) : Below c.childrenOf p x ↔ c.parentOf x = some p :=
  linked.children p x

theorem below_eq (linked : c.Linked) : Below c.childrenOf = fun p x => c.parentOf x = some p := by
  funext p x
  exact propext (linked.children p x)

theorem indexed_of_parent (parent : c.parentOf x = some p) : x ∈ c.index.keys := by
  obtain ⟨place,object,found,-⟩ := parentOf_eq_some.mp parent
  exact SortedMap.mem_keys.mpr ⟨place,(find_eq_some.mp found).1⟩

theorem removal_bounded (linked : c.Linked) (known : c.index.contains id)
    (below : Relation.ReflTransGen (Below c.childrenOf) id x) : x ∈ c.index.keys := by
  rcases Relation.ReflTransGen.cases_tail below with same | ⟨p,-,edge⟩
  · rw [same]
    exact contains_iff_mem_keys.mp known
  · exact indexed_of_parent ((below_iff linked).mp edge)

theorem single (linked : c.Linked) {q : ObjectId} (first : Below c.childrenOf p x) (second : Below c.childrenOf q x) :
    p = q := by
  rw [below_iff linked] at first second
  rw [first] at second
  exact Option.some.inj second

theorem once (c : Candidate Content) (p : ObjectId) : (c.childrenOf p).Nodup := nodup_keys _

theorem visit_spec (linked : c.Linked) (known : c.index.contains id) (apart : ¬c.OwnAncestor id) :
    ∃ all, visit c.childrenOf c.index.size [] [id] = some all ∧ Worklist.Sound c.childrenOf id all [] := by
  refine Worklist.visit_ends (single linked) (once c) ?_ (fun x => removal_bounded linked known) c.index.size
    (Worklist.sound_root id) ?_
  · rwa [below_eq linked]
  · rw [SortedMap.keys,length_map]
    exact le_add_right _ _

theorem removal_ends_iff (linked : c.Linked) (id : ObjectId) :
    (∃ fuel r, c.removeCandidate fuel id = some r) ↔ ¬c.OwnAncestor id := by
  cases known : c.index.contains id with
  | false =>
    constructor
    · rintro - around
      obtain ⟨p,-,edge⟩ := Relation.TransGen.tail'_iff.mp around
      rw [contains_iff_mem_keys.mpr (indexed_of_parent edge)] at known
      cases known
    · intro _
      exact ⟨0,_,if_pos known⟩
  | true =>
    have same : ∀ fuel, c.removeCandidate fuel id =
        (visit c.childrenOf fuel [] [id]).map fun pending => .ok (pending.foldl removeOne c) := by
      intro fuel
      rw [removeCandidate,if_neg (by rw [known]; exact Bool.noConfusion)]
    constructor
    · rintro ⟨fuel,r,ended⟩ around
      rw [same] at ended
      obtain ⟨all,visited,-⟩ := Option.map_eq_some_iff.mp ended
      rw [OwnAncestor,← below_eq linked] at around
      rw [Worklist.visit_goes_on fuel ⟨id,mem_singleton.mpr rfl,around⟩ around] at visited
      cases visited
    · intro apart
      obtain ⟨all,visited,-⟩ := visit_spec linked known apart
      exact ⟨c.index.size,_,by rw [same,visited]; rfl⟩

structure Cut (c : Candidate Content) (gone : List ObjectId) (d : Candidate Content) : Prop where
  objects : d.objects = c.objects
  index : ∀ x, d.index.find? x = if x ∈ gone then none else c.index.find? x
  children : ∀ p x, x ∈ d.childrenOf p ↔ x ∈ c.childrenOf p ∧ p ∉ gone ∧ x ∉ gone

variable {gone : List ObjectId}

theorem Cut.removeOne (linked : c.Linked) (cut : Cut c gone d) {r : ObjectId}
    (fresh : r ∉ gone) (known : r ∈ c.index.keys) : Cut c (gone ++ [r]) (d.removeOne r) := by
  obtain ⟨place,indexed⟩ := SortedMap.mem_keys.mp known
  obtain ⟨object,found,-⟩ := linked.find indexed
  obtain ⟨-,there⟩ := find_eq_some.mp found
  have here : d.find r = some (place,object) := by
    rw [find_eq_some,cut.index,if_neg fresh,cut.objects]
    exact ⟨indexed,there⟩
  have same : d.removeOne r =
      { d with
        children := (eraseChild d.children object.parent r).erase r
        index := d.index.erase r
        removed := d.removed.insert r () } := by
    rw [Candidate.removeOne,here]
  rw [same]
  refine ⟨cut.objects,?_,?_⟩
  · intro x
    rw [find?_erase,cut.index]
    by_cases isR : x = r
    · simp [isR]
    · simp [isR]
  · intro p x
    change x ∈ kids ((eraseChild d.children object.parent r).erase r) p ↔ _
    rw [mem_kids_erase,mem_eraseChild]
    change p ≠ r ∧ x ∈ d.childrenOf p ∧ _ ↔ _
    rw [cut.children]
    simp only [mem_append,mem_singleton,not_or]
    constructor
    · rintro ⟨other,⟨child,parentLeft,left⟩,notOwn⟩
      refine ⟨child,⟨parentLeft,other⟩,left,?_⟩
      rintro rfl
      obtain ⟨place',object',found',parent⟩ := parentOf_eq_some.mp ((linked.children p x).mp child)
      rw [found] at found'
      cases found'
      exact notOwn ⟨parent,rfl⟩
    · rintro ⟨child,⟨parentLeft,other⟩,left,notR⟩
      exact ⟨other,⟨child,parentLeft,left⟩,fun own => notR own.2⟩

theorem cut_foldl (linked : c.Linked) : ∀ (rest gone : List ObjectId) (d : Candidate Content), Cut c gone d →
    (gone ++ rest).Nodup → (∀ x ∈ rest, x ∈ c.index.keys) → Cut c (gone ++ rest) (rest.foldl Candidate.removeOne d) := by
  intro rest
  induction rest with
  | nil =>
    intro gone d cut _ _
    rwa [append_nil]
  | cons r rest ih =>
    intro gone d cut nodup known
    have fresh : r ∉ gone := fun member => (nodup_append.mp nodup).2.2 r member r (.head _) rfl
    have again := ih (gone ++ [r]) (d.removeOne r) (cut.removeOne linked fresh (known r (.head _)))
      (by rw [append_assoc]; exact nodup) (fun x member => known x (.tail _ member))
    rwa [append_assoc] at again

theorem Cut.linked (linked : c.Linked) (cut : Cut c gone d)
    (closed : ∀ p ∈ gone, ∀ x, Below c.childrenOf p x → x ∈ gone) : d.Linked := by
  have finds : ∀ x, d.find x = if x ∈ gone then none else c.find x := by
    intro x
    rw [Candidate.find,Candidate.find,cut.index,cut.objects]
    by_cases left : x ∈ gone
    · rw [if_pos left,if_pos left]
      rfl
    · rw [if_neg left,if_neg left]
  constructor
  · intro id place indexed
    rw [cut.index] at indexed
    split_ifs at indexed
    rw [cut.objects]
    exact linked.placed id place indexed
  · intro p x
    have parents : d.parentOf x = if x ∈ gone then none else c.parentOf x := by
      rw [parentOf,finds]
      split_ifs
      · rfl
      · rfl
    rw [cut.children,linked.children,parents]
    by_cases left : x ∈ gone
    · simp [left]
    · rw [if_neg left]
      refine ⟨And.left,fun parent => ⟨parent,fun goes => ?_,left⟩⟩
      exact left (closed p goes x ((below_iff linked).mpr parent))

theorem removeCandidate_linked (linked : c.Linked) {fuel : Nat} (removed : c.removeCandidate fuel id = some (.ok d)) :
    d.Linked := by
  have apart := (removal_ends_iff linked id).mp ⟨fuel,_,removed⟩
  unfold removeCandidate at removed
  split at removed
  · cases removed
  next known =>
  have known : c.index.contains id := eq_true_of_ne_false known
  obtain ⟨all,visited,same⟩ := Option.map_eq_some_iff.mp removed
  cases same
  obtain ⟨all',visited',sound⟩ := visit_spec linked known apart
  -- The visit found the same with any fuel that is enough.
  have agree : all = all' := by
    have first := Worklist.visit_mono c.index.size visited
    have second := Worklist.visit_mono fuel visited'
    rw [add_comm,first] at second
    exact Option.some.inj second
  rw [agree]
  have nodup := sound.nodup
  have closed := sound.closed
  rw [append_nil] at nodup closed
  have cut : Cut c [] c := ⟨rfl,fun x => by simp,fun p x => by simp⟩
  refine (cut_foldl linked all' [] c cut nodup ?_).linked linked closed
  intro x member
  exact removal_bounded linked known (sound.below x (mem_append_left _ member))

theorem parentOf_setObject (linked : c.Linked) {changed : SnapshotObject Content}
    (found : c.find id = some (place,object)) :
    (c.setObject place changed).parentOf x = if x = id then changed.parent else c.parentOf x := by
  obtain ⟨indexed,there⟩ := find_eq_some.mp found
  have inside : place < c.objects.length := (List.getElem?_eq_some_iff.mp there).1
  by_cases here : x = id
  · rw [if_pos here,here,parentOf]
    change ((c.index.find? id).bind fun place' => ((c.objects.set place changed)[place']?).map _).bind _ = _
    rw [indexed,Option.bind_some,getElem?_set_self inside]
    rfl
  · rw [if_neg here,parentOf,parentOf,find,find]
    change ((c.index.find? x).bind fun place' => ((c.objects.set place changed)[place']?).map _).bind _ = _
    cases indexed' : c.index.find? x with
    | none => rfl
    | some place' =>
      have apart : place ≠ place' := by
        rintro rfl
        obtain ⟨object',found',same⟩ := linked.find indexed'
        rw [(find_eq_some.mp found').2] at there
        cases there
        exact here (same.symm.trans (linked.id_eq found))
      rw [Option.bind_some,Option.bind_some,getElem?_set_ne apart]

theorem placed_setObject (linked : c.Linked) {changed : SnapshotObject Content}
    (found : c.find id = some (place,object)) (same : changed.id = object.id) :
    ∀ x place', c.index.find? x = some place' →
      ∃ object', (c.setObject place changed).objects[place']? = some object' ∧ object'.id = x := by
  intro x place' indexed
  obtain ⟨-,there⟩ := find_eq_some.mp found
  have inside : place < c.objects.length := (List.getElem?_eq_some_iff.mp there).1
  obtain ⟨object',there',own⟩ := linked.placed x place' indexed
  change ∃ object', (c.objects.set place changed)[place']? = some object' ∧ _
  by_cases here : place = place'
  · rw [here] at there inside ⊢
    rw [there] at there'
    cases there'
    exact ⟨changed,getElem?_set_self inside,same.trans own⟩
  · exact ⟨object',by rw [getElem?_set_ne here]; exact there',own⟩

theorem update_linked (linked : c.Linked) {change : SnapshotObject Content → Except String (SnapshotObject Content)}
    (updated : c.update id change = .ok d) : d.Linked := by
  unfold update at updated
  cases found : c.find id with
  | none =>
    rw [found] at updated
    cases updated
  | some e =>
    obtain ⟨place,object⟩ := e
    rw [found] at updated
    dsimp only at updated
    cases changes : change object with
    | error message =>
      rw [changes] at updated
      cases updated
    | ok changed =>
      rw [changes] at updated
      cases updated
      refine ⟨placed_setObject linked found rfl,?_⟩
      intro p x
      rw [parentOf_setObject linked found]
      change x ∈ c.childrenOf p ↔ _
      rw [linked.children]
      by_cases here : x = id
      · have own : c.parentOf id = object.parent := by rw [parentOf,found]; rfl
        rw [if_pos here,here,own]
      · rw [if_neg here]

theorem reparent_linked (linked : c.Linked) {parent : Option ObjectId} (reparented : c.reparent id parent = .ok d) :
    d.Linked := by
  unfold reparent at reparented
  cases found : c.find id with
  | none =>
    rw [found] at reparented
    cases reparented
  | some e =>
    obtain ⟨place,object⟩ := e
    rw [found] at reparented
    split_ifs at reparented
    cases reparented
    have sameId := linked.id_eq found
    have own : c.parentOf id = object.parent := by rw [parentOf,found]; rfl
    refine ⟨placed_setObject linked found rfl,?_⟩
    intro p x
    have parents : (({ c with
        children := insertChild (eraseChild c.children object.parent object.id) parent object.id } :
          Candidate Content).setObject place { object with parent }).parentOf x =
        if x = id then parent else c.parentOf x := parentOf_setObject linked found
    rw [parents]
    change x ∈ kids (insertChild (eraseChild c.children object.parent object.id) parent object.id) p ↔ _
    rw [mem_insertChild,mem_eraseChild]
    change x ∈ c.childrenOf p ∧ _ ∨ _ ↔ _
    rw [linked.children,sameId]
    by_cases here : x = id
    · rw [if_pos here,here,own]
      constructor
      · rintro (⟨old,notOld⟩ | ⟨new,-⟩)
        · exact absurd ⟨old,rfl⟩ notOld
        · exact new
      · exact fun new => .inr ⟨new,rfl⟩
    · rw [if_neg here]
      constructor
      · rintro (⟨old,-⟩ | ⟨-,isId⟩)
        · exact old
        · exact absurd isId here
      · exact fun old => .inl ⟨old,fun isId => here isId.2⟩

theorem publish_linked (linked : c.Linked) {value : PublishReplication Content} (published : c.publish value = .ok d) :
    d.Linked := by
  unfold publish at published
  split_ifs at published with again there parent
  have absent := linked.find_eq_none (Option.not_isSome_iff_eq_none.mp there)
  have unknown : c.index.contains value.object = false := by rw [SortedMap.contains,absent]; rfl
  have noParent : c.parentOf value.object = none := by
    rw [parentOf,find,absent]
    rfl
  cases published
  have index : ∀ x, (if c.index.contains value.object = true then c.index else
      c.index.insert value.object c.objects.length).find? x =
        if x = value.object then some c.objects.length else c.index.find? x := by
    intro x
    rw [unknown,if_neg Bool.false_ne_true,find?_insert]
  constructor
  · intro id place indexed
    change (if c.index.contains value.object = true then c.index else
      c.index.insert value.object c.objects.length).find? id = some place at indexed
    rw [index] at indexed
    change ∃ object, (c.objects ++ [_])[place]? = some object ∧ _
    split_ifs at indexed with new
    · cases indexed
      exact ⟨_,getElem?_concat_length,new.symm⟩
    · obtain ⟨object,old,same⟩ := linked.placed id place indexed
      exact ⟨object,by rw [List.getElem?_append_left (List.getElem?_eq_some_iff.mp old).1]; exact old,same⟩
  · intro p x
    change x ∈ kids (insertChild c.children value.parent value.object) p ↔
      (((if c.index.contains value.object = true then c.index else
        c.index.insert value.object c.objects.length).find? x).bind fun place =>
          ((c.objects ++ [_])[place]?).map _).bind _ = _
    rw [mem_insertChild,index]
    change x ∈ c.childrenOf p ∨ _ ↔ _
    rw [linked.children]
    by_cases new : x = value.object
    · rw [if_pos new,Option.bind_some,new,noParent]
      simp
    · rw [if_neg new]
      simp only [new,and_false,or_false]
      rw [parentOf,find]
      cases indexed : c.index.find? x with
      | none => rfl
      | some place =>
        obtain ⟨object,old,-⟩ := linked.placed x place indexed
        rw [Option.bind_some,Option.bind_some,List.getElem?_append_left (List.getElem?_eq_some_iff.mp old).1]

structure Entered (objects : List (SnapshotObject Content)) (entries : List (SnapshotObject Content × Nat))
    (c : Candidate Content) : Prop where
  objects : c.objects = objects
  index : ∀ x place, c.index.find? x = some place ↔ ∃ object, (object,place) ∈ entries ∧ object.id = x
  children : ∀ p x, x ∈ c.childrenOf p ↔ ∃ e ∈ entries, e.1.id = x ∧ e.1.parent = some p

theorem Entered.enter {entries : List (SnapshotObject Content × Nat)} (entered : Entered objects entries c)
    (fresh : ∀ e ∈ entries, e.1.id ≠ object.id) :
    Entered objects (entries ++ [(object,place)]) (c.enter place object) := by
  have unknown : c.index.contains object.id = false := by
    cases known : c.index.contains object.id with
    | false => rfl
    | true =>
      obtain ⟨place',indexed⟩ := contains_iff.mp known
      obtain ⟨object',member,same⟩ := (entered.index _ _).mp indexed
      exact absurd same (fresh _ member)
  refine ⟨entered.objects,?_,?_⟩
  · intro x place'
    change (if c.index.contains object.id = true then c.index else c.index.insert object.id place).find? x = _ ↔ _
    rw [unknown,if_neg Bool.false_ne_true,find?_insert]
    simp only [mem_append,mem_singleton,Prod.mk.injEq]
    by_cases here : x = object.id
    · rw [if_pos here,here]
      constructor
      · rintro same
        cases same
        exact ⟨object,.inr ⟨rfl,rfl⟩,rfl⟩
      · rintro ⟨object',old | ⟨-,rfl⟩,same⟩
        · exact absurd same (fresh _ old)
        · rfl
    · rw [if_neg here,entered.index]
      constructor
      · rintro ⟨object',old,same⟩
        exact ⟨object',.inl old,same⟩
      · rintro ⟨object',old | ⟨rfl,-⟩,same⟩
        · exact ⟨object',old,same⟩
        · exact absurd same.symm here
  · intro p x
    change x ∈ kids (insertChild c.children object.parent object.id) p ↔ _
    rw [mem_insertChild]
    change x ∈ c.childrenOf p ∨ _ ↔ _
    rw [entered.children]
    simp only [mem_append,mem_singleton]
    constructor
    · rintro (⟨e,old,same⟩ | ⟨parent,rfl⟩)
      · exact ⟨e,.inl old,same⟩
      · exact ⟨(object,place),.inr rfl,rfl,parent⟩
    · rintro ⟨e,old | rfl,same,parent⟩
      · exact .inl ⟨e,old,same,parent⟩
      · exact .inr ⟨parent,same.symm⟩

theorem entered_foldl : ∀ (rest entries : List (SnapshotObject Content × Nat))
    (c : Candidate Content), Entered objects entries c → ((entries ++ rest).map fun e => e.1.id).Nodup →
      Entered objects (entries ++ rest) (rest.foldl (fun c e => c.enter e.2 e.1) c) := by
  intro rest
  induction rest with
  | nil =>
    intro entries c entered _
    rwa [append_nil]
  | cons e rest ih =>
    intro entries c entered distinct
    have fresh : ∀ e' ∈ entries, e'.1.id ≠ e.1.id := by
      intro e' member same
      rw [map_append] at distinct
      exact (nodup_append.mp distinct).2.2 _ (mem_map_of_mem member) _ (.head _) same
    have again := ih (entries ++ [e]) (c.enter e.2 e.1) (entered.enter fresh) (by rw [append_assoc]; exact distinct)
    rwa [append_assoc] at again

theorem candidateOf_linked (distinct : (objects.map SnapshotObject.id).Nodup) : (candidateOf objects).Linked := by
  have none : Entered objects [] ({ objects } : Candidate Content) := by
    refine ⟨rfl,fun x place => ?_,fun p x => ?_⟩
    · simp [find?_eq_some,emptyCollection,SortedMap.empty]
    · simp [childrenOf,SortedMap.find?,SortedMap.findIn,SortedMap.keys,emptyCollection,SortedMap.empty]
  have all := entered_foldl objects.zipIdx [] _ none (by
    have ids : (objects.zipIdx.map fun e => e.1.id) = objects.map SnapshotObject.id := by
      change objects.zipIdx.map (SnapshotObject.id ∘ Prod.fst) = _
      rw [← map_map,zipIdx_map_fst]
    rw [nil_append,ids]
    exact distinct)
  change Entered objects objects.zipIdx (candidateOf objects) at all
  constructor
  · intro id place indexed
    obtain ⟨object,member,same⟩ := (all.index id place).mp indexed
    rw [all.objects]
    exact ⟨object,mem_zipIdx_iff_getElem?.mp member,same⟩
  · intro p x
    rw [all.children,parentOf_eq_some]
    constructor
    · rintro ⟨⟨object,place⟩,member,same,parent⟩
      refine ⟨place,object,find_eq_some.mpr ⟨(all.index x place).mpr ⟨object,member,same⟩,?_⟩,parent⟩
      rw [all.objects]
      exact mem_zipIdx_iff_getElem?.mp member
    · rintro ⟨place,object,found,parent⟩
      obtain ⟨indexed,there⟩ := find_eq_some.mp found
      rw [all.objects] at there
      obtain ⟨object',member,same⟩ := (all.index x place).mp indexed
      have there' := mem_zipIdx_iff_getElem?.mp member
      rw [there] at there'
      cases there'
      exact ⟨(_,place),member,same,parent⟩

theorem removeCandidate_mono {fuel : Nat} (more : Nat) {r : Except String (Candidate Content)}
    (ended : c.removeCandidate fuel id = some r) : c.removeCandidate (fuel + more) id = some r := by
  unfold removeCandidate at ended ⊢
  split
  next absent =>
    rwa [if_pos absent] at ended
  next known =>
    rw [if_neg known] at ended
    obtain ⟨all,visited,same⟩ := Option.map_eq_some_iff.mp ended
    rw [Worklist.visit_mono more visited,← same]
    rfl

end Candidate

def ReplicationIntent.removes : ReplicationIntent Content → Option ObjectId
  | .unpublish object | .destroy object => some object
  | _ => none

variable (env : Environment Content Receiver)

/-- An operation that does not remove is done at once, and keeps the links; a removal marks the object and removes it,
    unless the object is marked already. -/
theorem applyIntent_cases (linked : c.Linked) (intent : ReplicationIntent Content) :
    (intent.removes = none ∧ ∃ r, (∀ fuel, applyIntent env fuel c intent = some r) ∧ ∀ d, r = .ok d → d.Linked) ∨
      ∃ id, intent.removes = some id ∧ ∀ fuel, applyIntent env fuel c intent = remove fuel c id := by
  have linked' : (preflighted c).Linked := ⟨linked.placed,linked.children⟩
  cases intent with
  | publish value => exact .inl ⟨rfl,_,fun _ => rfl,fun d done => Candidate.publish_linked linked done⟩
  | property object name value declaring version =>
    refine .inl ⟨rfl,_,fun _ => rfl,fun d done => Candidate.update_linked ?_ done⟩
    unfold afterProperty
    split
    · exact linked
    split
    · exact linked
    · exact linked'
  | extension object id version name value =>
    exact .inl ⟨rfl,_,fun _ => rfl,fun d done => Candidate.update_linked linked' done⟩
  | reparent object parent => exact .inl ⟨rfl,_,fun _ => rfl,fun d done => Candidate.reparent_linked linked' done⟩
  | attributeUpdate object name value => exact .inl ⟨rfl,_,fun _ => rfl,fun d done => Candidate.update_linked linked' done⟩
  | tagAdded object name => exact .inl ⟨rfl,_,fun _ => rfl,fun d done => Candidate.update_linked linked' done⟩
  | tagRemoved object name => exact .inl ⟨rfl,_,fun _ => rfl,fun d done => Candidate.update_linked linked' done⟩
  | unpublish object => exact .inr ⟨object,rfl,fun _ => rfl⟩
  | destroy object => exact .inr ⟨object,rfl,fun _ => rfl⟩

variable {fuel : Nat} {r : Except String (Candidate Content)} {intent : ReplicationIntent Content} (more : Nat)

theorem remove_mono {id : ObjectId} (ended : remove fuel c id = some r) : remove (fuel + more) c id = some r := by
  unfold remove at ended ⊢
  split
  next again =>
    rwa [if_pos again] at ended
  next first =>
    rw [if_neg first] at ended
    exact Candidate.removeCandidate_mono more ended

section
variable (linked : c.Linked)
include linked

theorem remove_ends_iff (id : ObjectId) :
    (∃ fuel r, remove fuel c id = some r) ↔ (c.lifecycle.contains id = false → ¬c.OwnAncestor id) := by
  have marked : ({ preflighted c with lifecycle := c.lifecycle.insert id () } : Candidate Content).Linked :=
    ⟨linked.placed,linked.children⟩
  cases again : c.lifecycle.contains id with
  | true =>
    refine iff_of_true ⟨0,_,if_pos again⟩ ?_
    intro first
    cases first
  | false =>
    have same : ∀ fuel, remove fuel c id =
        ({ preflighted c with lifecycle := c.lifecycle.insert id () } : Candidate Content).removeCandidate fuel id := by
      intro fuel
      rw [remove,if_neg (by rw [again]; exact Bool.noConfusion)]
    simp only [same,true_implies]
    exact Candidate.removal_ends_iff marked id

theorem remove_linked {id : ObjectId} (removed : remove fuel c id = some (.ok d)) : d.Linked := by
  unfold remove at removed
  split at removed
  · cases removed
  · have marked : ({ preflighted c with lifecycle := c.lifecycle.insert id () } : Candidate Content).Linked :=
      ⟨linked.placed,linked.children⟩
    exact Candidate.removeCandidate_linked marked removed

theorem applyIntent_mono (ended : applyIntent env fuel c intent = some r) :
    applyIntent env (fuel + more) c intent = some r := by
  rcases applyIntent_cases env linked intent with ⟨-,r',same,-⟩ | ⟨id,-,same⟩
  · rw [same] at ended ⊢
    exact ended
  · rw [same] at ended ⊢
    exact remove_mono more ended

theorem applyIntent_linked (done : applyIntent env fuel c intent = some (.ok d)) : d.Linked := by
  rcases applyIntent_cases env linked intent with ⟨-,r',same,keeps⟩ | ⟨id,-,same⟩
  · rw [same] at done
    exact keeps d (Option.some.inj done)
  · rw [same] at done
    exact remove_linked linked done

theorem applyIntent_ends_iff (intent : ReplicationIntent Content) :
    (∃ fuel r, applyIntent env fuel c intent = some r) ↔
      ∀ id, intent.removes = some id → c.lifecycle.contains id = false → ¬c.OwnAncestor id := by
  rcases applyIntent_cases env linked intent with ⟨none,r,same,-⟩ | ⟨id,removes,same⟩
  · refine iff_of_true ⟨0,r,same 0⟩ ?_
    intro id removes
    rw [none] at removes
    cases removes
  · simp only [same]
    rw [remove_ends_iff linked]
    constructor
    · intro ends id' removes'
      rw [removes] at removes'
      cases removes'
      exact ends
    · exact fun ends => ends id removes

end

def Reaches (c : Candidate Content) (operations : List (ReplicationOperation Content)) (d : Candidate Content) : Prop :=
  ∃ fuel, validate env fuel c operations = some (.ok d)

def RemovesDescendants (c : Candidate Content) (operations : List (ReplicationOperation Content)) : Prop :=
  ∀ before operation after, operations = before ++ operation :: after → ∀ d, Reaches env c before d →
    ∀ id, operation.intent.removes = some id → d.lifecycle.contains id = false → ¬d.OwnAncestor id

variable {operations : List (ReplicationOperation Content)}

theorem validate_mono :
    ∀ {c : Candidate Content} {r : Except String (Candidate Content)}, c.Linked →
      validate env fuel c operations = some r → validate env (fuel + more) c operations = some r := by
  induction operations with
  | nil => exact fun _ done => done
  | cons operation rest ih =>
    intro c r linked done
    rw [validate] at done ⊢
    cases applied : applyIntent env fuel c operation.intent with
    | none =>
      rw [applied] at done
      cases done
    | some result =>
      rw [applied] at done
      rw [applyIntent_mono env more linked applied]
      cases result with
      | error message => exact done
      | ok d => exact ih (applyIntent_linked env linked applied) done

section
variable (linked : c.Linked)
include linked

theorem applyIntent_unique {fuel' : Nat} {r' : Except String (Candidate Content)}
    (first : applyIntent env fuel c intent = some r) (second : applyIntent env fuel' c intent = some r') : r = r' := by
  have left := applyIntent_mono env fuel' linked first
  have right := applyIntent_mono env fuel linked second
  rw [add_comm,left] at right
  exact Option.some.inj right

theorem reaches_cons {operation : ReplicationOperation Content}
    {rest : List (ReplicationOperation Content)} {e : Candidate Content} : Reaches env c (operation :: rest) e ↔
      ∃ d, (∃ fuel, applyIntent env fuel c operation.intent = some (.ok d)) ∧ Reaches env d rest e := by
  constructor
  · rintro ⟨fuel,done⟩
    rw [validate] at done
    cases applied : applyIntent env fuel c operation.intent with
    | none =>
      rw [applied] at done
      cases done
    | some result =>
      rw [applied] at done
      cases result with
      | error message => cases done
      | ok d => exact ⟨d,⟨fuel,applied⟩,fuel,done⟩
  · rintro ⟨d,⟨fuel,applied⟩,fuel',done⟩
    refine ⟨fuel + fuel',?_⟩
    rw [validate,applyIntent_mono env fuel' linked applied]
    have more := validate_mono env fuel (applyIntent_linked env linked applied) done
    rwa [add_comm] at more

theorem reaches_linked
    (reached : Reaches env c operations d) : d.Linked := by
  induction operations generalizing c with
  | nil =>
    obtain ⟨fuel,done⟩ := reached
    cases done
    exact linked
  | cons operation rest ih =>
    obtain ⟨e,⟨fuel,applied⟩,onward⟩ := (reaches_cons env linked).mp reached
    exact ih (applyIntent_linked env linked applied) onward

theorem validate_ends_iff (operations : List (ReplicationOperation Content)) :
    (∃ fuel r, validate env fuel c operations = some r) ↔ RemovesDescendants env c operations := by
  induction operations generalizing c with
  | nil =>
    refine iff_of_true ⟨0,_,rfl⟩ ?_
    intro before operation after split
    exact absurd split.symm (by simp)
  | cons operation rest ih =>
    constructor
    · rintro ⟨fuel,r,done⟩ before operation' after split d reached id removes unmarked
      rw [validate] at done
      have first : ∃ fuel r, applyIntent env fuel c operation.intent = some r := by
        cases applied : applyIntent env fuel c operation.intent with
        | none =>
          rw [applied] at done
          cases done
        | some result => exact ⟨fuel,result,applied⟩
      cases before with
      | nil =>
        cases split
        obtain ⟨fuel',here⟩ := reached
        cases here
        exact (applyIntent_ends_iff env linked _).mp first id removes unmarked
      | cons head before =>
        cases split
        obtain ⟨e,⟨fuel',applied⟩,onward⟩ := (reaches_cons env linked).mp reached
        obtain ⟨fuel'',result,applied'⟩ := first
        cases same : applyIntent env fuel c operation.intent with
        | none =>
          rw [same] at done
          cases done
        | some result' =>
          rw [same] at done
          have agree := applyIntent_unique env linked same applied
          rw [agree] at done
          exact (ih (applyIntent_linked env linked applied)).mp ⟨fuel,r,done⟩ before operation' after rfl d onward id
            removes unmarked
    · intro descendants
      have ends : ∀ id, operation.intent.removes = some id → c.lifecycle.contains id = false → ¬c.OwnAncestor id :=
        descendants [] operation rest rfl c ⟨0,rfl⟩
      obtain ⟨fuel,result,applied⟩ := (applyIntent_ends_iff env linked _).mpr ends
      cases result with
      | error message => exact ⟨fuel,.error message,by rw [validate,applied]⟩
      | ok d =>
        have linked' := applyIntent_linked env linked applied
        have later : RemovesDescendants env d rest := by
          intro before operation' after split e reached
          exact descendants (operation :: before) operation' after (by rw [split]; rfl) e
            ((reaches_cons env linked).mpr ⟨d,⟨fuel,applied⟩,reached⟩)
        obtain ⟨fuel',r,done⟩ := (ih linked').mpr later
        refine ⟨fuel + fuel',r,?_⟩
        rw [validate,applyIntent_mono env fuel' linked applied]
        have more := validate_mono env fuel linked' done
        rwa [add_comm] at more

end

structure IsTree (objects : List (SnapshotObject Content)) : Prop where
  distinct : (objects.map SnapshotObject.id).Nodup
  root : ∃ root ∈ objects, root.parent = none ∧ ∀ object ∈ objects, object.parent = none → object.id = root.id
  parents : ∀ object ∈ objects, ∀ p, object.parent = some p → p ∈ objects.map SnapshotObject.id
  acyclic : ∃ depth : ObjectId → Nat, ∀ object ∈ objects, ∀ p, object.parent = some p → depth p < depth object.id

/-- The frame is answered, and every removal that its validation reaches visits each object at most once. -/
structure Ends (s : State Content Receiver) (frame : ReplicationFrame Content) : Prop where
  returns : ∃ fuel r, applyFrame env fuel s frame = some r
  visits : validates env s frame → ∀ before operation after, frame.operations = before ++ operation :: after →
    ∀ c, Reaches env (candidateOf s.semanticState.objects) before c → ∀ id, operation.intent.removes = some id →
      c.lifecycle.contains id = false → c.index.contains id = true →
        ∃ fuel all, visit c.childrenOf fuel [] [id] = some all ∧ all.Nodup

theorem applyFrame_returns_iff {s : State Content Receiver} {frame : ReplicationFrame Content}
    (distinct : (s.semanticState.objects.map SnapshotObject.id).Nodup) :
    (∃ fuel r, applyFrame env fuel s frame = some r) ↔
      (validates env s frame → RemovesDescendants env (candidateOf s.semanticState.objects) frame.operations) := by
  cases refused : refusal env s frame with
  | some result =>
    refine iff_of_true ⟨0,(result,s),by rw [applyFrame,refused]⟩ ?_
    rintro ⟨passes,-⟩
    rw [refused] at passes
    cases passes
  | none =>
    by_cases kind : frame.kind = .baseline
    · refine iff_of_true ⟨0,applyBaseline env s frame,by rw [applyFrame,refused]; exact if_pos kind⟩ ?_
      rintro ⟨-,incremental⟩
      rw [kind] at incremental
      cases incremental
    · have incremental : frame.kind = .incremental := by
        cases known : frame.kind with
        | baseline => exact absurd known kind
        | incremental => rfl
      have holds : validates env s frame := ⟨refused,incremental⟩
      have same : ∀ fuel, (∃ r, applyFrame env fuel s frame = some r) ↔
          ∃ r, validate env fuel (candidateOf s.semanticState.objects) frame.operations = some r := by
        intro fuel
        rw [applyFrame,refused]
        rw [if_neg kind]
        cases validate env fuel (candidateOf s.semanticState.objects) frame.operations with
        | none => simp
        | some r => simp
      simp only [same,holds,true_implies]
      exact validate_ends_iff env (Candidate.candidateOf_linked distinct) frame.operations

/-- From committed objects that form a tree, `ApplyFrame` returns, its removals visiting each object at most once, if
    and only if no removal that its validation reaches removes an object that earlier operations of the frame made its
    own ancestor. -/
theorem applyFrame_ends_iff {s : State Content Receiver} (tree : IsTree s.semanticState.objects)
    (frame : ReplicationFrame Content) :
    Ends env s frame ↔
      (validates env s frame → RemovesDescendants env (candidateOf s.semanticState.objects) frame.operations) := by
  constructor
  · exact fun ends => (applyFrame_returns_iff env tree.distinct).mp ends.returns
  · intro descendants
    refine ⟨(applyFrame_returns_iff env tree.distinct).mpr descendants,?_⟩
    intro holds before operation after split c reached id removes unmarked known
    have linked := reaches_linked env (Candidate.candidateOf_linked tree.distinct) reached
    have apart := descendants holds before operation after split c reached id removes unmarked
    obtain ⟨all,visited,sound⟩ := Candidate.visit_spec linked known apart
    have nodup := sound.nodup
    rw [append_nil] at nodup
    exact ⟨_,all,visited,nodup⟩

end

/-- An environment that refuses nothing. -/
def permissive : Environment Unit Unit where
  isSchemaCompatible _ := true
  isValidPublish _ := true
  isValidProperty _ _ := true
  isValidAttribute _ _ := true
  isValidTagName _ := true
  isValidSchemaId _ := true
  customProperty _ _ _ _ _ := .ok ()
  extensionProperty _ _ _ _ _ := .ok ()
  loadSnapshot _ := .ok ()
  commit receiver _ := (receiver,none)

def rootId : ObjectId := ⟨1,1⟩
def childId : ObjectId := ⟨2,1⟩

def twoObjects : State Unit Unit where
  semanticState :=
    { scope := rootId
      objects := [{ id := rootId, parent := none, content := () },{ id := childId, parent := some rootId, content := () }] }
  receiver := ()
  epoch := ⟨1⟩
  nextSequence := ⟨2⟩

theorem twoObjects_tree : IsTree twoObjects.semanticState.objects where
  distinct := by decide
  root := ⟨_,.head _,rfl,by decide⟩
  parents := by decide
  acyclic := ⟨(·.slot.toNat),by decide⟩

def loopFrame : ReplicationFrame Unit where
  epoch := ⟨1⟩
  sequence := ⟨2⟩
  operations := [⟨⟨1⟩,.reparent childId (some childId)⟩,⟨⟨1⟩,.destroy childId⟩]

theorem ends_twoObjects :
    IsTree twoObjects.semanticState.objects ∧
      (Ends permissive twoObjects loopFrame ↔ (validates permissive twoObjects loopFrame →
        RemovesDescendants permissive (candidateOf twoObjects.semanticState.objects) loopFrame.operations)) :=
  ⟨twoObjects_tree,applyFrame_ends_iff permissive twoObjects_tree loopFrame⟩

def looped : Candidate Unit :=
  match applyIntent permissive 0 (candidateOf twoObjects.semanticState.objects) (.reparent childId (some childId)) with
  | some (.ok c) => c
  | _ => { objects := [] }

/-- A valid frame for which `ApplyFrame` never returns. -/
theorem loopFrame_goes_on :
    IsTree twoObjects.semanticState.objects ∧ loopFrame.isValid permissive = true ∧
      ∀ fuel, applyFrame permissive fuel twoObjects loopFrame = none := by
  refine ⟨twoObjects_tree,by decide,fun fuel => ?_⟩
  have edge : Below looped.childrenOf childId childId := by
    change childId ∈ looped.childrenOf childId
    decide
  have accepted : refusal permissive twoObjects loopFrame = none := by decide
  have first : applyIntent permissive fuel (candidateOf twoObjects.semanticState.objects)
      (.reparent childId (some childId)) = some (.ok looped) := rfl
  have second : applyIntent permissive fuel looped (.destroy childId) = none := by
    change remove fuel looped childId = none
    change (visit looped.childrenOf fuel [] [childId]).map _ = none
    rw [Worklist.visit_goes_on fuel ⟨childId,mem_singleton.mpr rfl,.single edge⟩ (.single edge)]
    rfl
  rw [applyFrame]
  rw [loopFrame,validate]
  rw [first]
  dsimp only
  rw [validate]
  rw [second]
  rfl

end ReplicaApplier
end Gargantuan
