import Gargantuan.ContentAvailability
import Gargantuan.ContentManifest

/-!
From the parser of package manifests to the service that is given one.
-/
namespace Gargantuan.ContentManifest
open List

variable {κ : Type} [LinearOrder κ] {entries : List (Entry κ)}

/-- What acceptance leaves to the users of a manifest. -/
theorem sound_of_parseManifest (accepted : parseManifest entries = .ok ()) :
    entries.length ≤ maximumPackageContentUnits ∧ (entries.map Entry.key).Pairwise (· < ·) ∧
      (∀ e ∈ entries, e.dependencies.Pairwise (· < ·) ∧ ∀ d ∈ e.dependencies, d ≠ e.key ∧ d ∈ entries.map Entry.key) ∧
      ∀ k, ¬Relation.TransGen (Depends entries) k k := by
  have checked := @parseEntries_ok κ _ [] 0 entries .nil (Nat.zero_le _)
  simp only [reverse_nil,nil_append,isChain_iff_pairwise,Nat.zero_add] at checked
  unfold parseManifest at accepted
  rcases parsed : parseEntries [] 0 entries with message | ⟨⟩
  · rw [parsed] at accepted
    split_ifs at accepted
  obtain ⟨keys,shapes,-⟩ := checked.mp parsed
  rw [parsed] at accepted
  dsimp only at accepted
  split_ifs at accepted with units absent cyclic
  all_goals cases accepted
  have present : ∀ e ∈ entries, ∀ d ∈ e.dependencies, indexOf entries d ≠ none := by simpa using absent
  have linked : Linked entries := ⟨keys.imp fun less => less.ne,present⟩
  obtain ⟨s,done,run,sound,empty⟩ := linked.drained_sound
  rw [run,Option.map_some,ne_eq,not_not,Option.some.injEq] at cyclic
  refine ⟨by omega,keys,fun e mem => ⟨(shapes e mem).2.1,fun d named => ⟨?_,?_⟩⟩,
    (linked.all_visited sound empty).mp cyclic⟩
  · rintro rfl
    exact (shapes e mem).2.2 named
  · obtain ⟨i,found⟩ := Option.ne_none_iff_exists'.mp (present e mem d named)
    obtain ⟨f,target,rfl⟩ := indexOf_some found
    exact mem_map_of_mem (mem_of_getElem? target)

open Classical in
/-- How many keys a key depends on, directly or through others. -/
noncomputable def rank (entries : List (Entry κ)) (k : κ) : Nat :=
  ((entries.map Entry.key).toFinset.filter fun d => Relation.TransGen (Depends entries) d k).card

theorem rank_lt {d k : κ} (acyclic : ∀ k, ¬Relation.TransGen (Depends entries) k k) (depends : Depends entries d k)
    (known : d ∈ entries.map Entry.key) : rank entries d < rank entries k := by
  classical
  refine Finset.card_lt_card ⟨fun x mem => ?_,fun all => ?_⟩
  · simp only [Finset.mem_filter] at mem ⊢
    exact ⟨mem.1,mem.2.tail depends⟩
  · have mem := all (Finset.mem_filter.mpr ⟨mem_toFinset.mpr known,.single depends⟩)
    exact acyclic d (Finset.mem_filter.mp mem).2

/-- The entries of an accepted manifest, whose payloads and object counts passed their checks, are a manifest for the
    service: in order, complete, and with every unit above those it depends on. -/
theorem manifest_of_parseManifest {content : List (κ × PackageContentEntry κ)}
    (shaped : ∀ e ∈ content, (0 < e.2.compressedBytes ∧ e.2.compressedBytes ≤ maximumPackageContentPayloadBytes ∧
      e.2.uncompressedBytes = e.2.compressedBytes) ∧
      0 < e.2.objectCount ∧ e.2.objectCount ≤ maximumPackageContentObjectsPerUnit)
    (accepted : parseManifest (content.map fun e => ⟨e.1,e.2.dependencies⟩) = .ok ()) :
    ∃ m : PackageContentManifest κ, m.entries.entries = content := by
  obtain ⟨units,keys,shapes,acyclic⟩ := sound_of_parseManifest accepted
  rw [length_map] at units
  rw [map_map] at keys shapes
  let entries : SortedMap κ (PackageContentEntry κ) := ⟨content,pairwise_map.mp keys⟩
  have stored {k : κ} {e : PackageContentEntry κ} (found : entries.find? k = some e) : (k,e) ∈ content :=
    SortedMap.find?_eq_some.mp found
  have listed {k : κ} {e : PackageContentEntry κ} (found : entries.find? k = some e) :=
    shapes _ (mem_map_of_mem (stored found))
  exact ⟨{
    entries
    units
    payload := fun k e found => (shaped _ (stored found)).1
    objects := fun k e found => (shaped _ (stored found)).2
    ascending := fun k e found => (listed found).1
    known := fun k e found d named => ⟨((listed found).2 d named).1,
      SortedMap.contains_iff_mem_keys.mpr ((listed found).2 d named).2⟩
    acyclic := ⟨rank _,fun k e found d named => rank_lt acyclic ⟨_,mem_map_of_mem (stored found),rfl,named⟩
      (by simpa using ((listed found).2 d named).2)⟩ },rfl⟩

theorem manifest_of_parseManifest_chain : ∃ m : PackageContentManifest Nat,
    m.entries.entries = [(0,⟨1,1,1,[],false⟩),(1,⟨1,1,1,[0],false⟩)] :=
  manifest_of_parseManifest (by decide) (by decide +kernel)

end Gargantuan.ContentManifest
