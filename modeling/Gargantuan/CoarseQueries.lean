import Gargantuan.ContentManifest
import Mathlib.Data.Int.ConditionallyCompleteOrder

/-!
The coarse index of a package: the entries by the cells that their bounds meet, and the queries for a box of
cells at once and page by page. A cell is in the index when it has members. Which coordinates are finite, and
in which cell one lies, is the parameter `Grid`; allocation failures are left out.
-/
namespace Gargantuan.PackageContentCoarseIndex
open List
open ContentManifest (maximumPackageContentUnits)

def maximumPackageSpaceKeyBytes : Nat := 64
def maximumPackageCoarseQueryCells : Nat := 4096
def maximumPackageCoarseQueryMembershipVisits : Nat := 262144
def maximumPackageCoarseIndexMemberships : Nat := 1048576
def maximumPackageCoarseIndexCells : Nat := 262144

structure Grid (ρ : Type) where
  isFinite : ρ → Bool
  cell : ρ → Int

structure CoarseBounds (ρ : Type) where
  minimum : Fin 3 → ρ
  maximum : Fin 3 → ρ
deriving DecidableEq

structure ContentEntry (ρ : Type) where
  packageSpaceKey : String := "default"
  coarseBounds : Option (CoarseBounds ρ) := none

structure Cell where
  space : String
  coordinate : Int × Int × Int
deriving DecidableEq

structure Index where
  cells : Cell → List Nat := fun _ => []
  populated : Nat := 0
  memberships : Nat := 0
  epoch : Nat

inductive BoxError
  | range
  | cells
deriving DecidableEq

section
variable {ρ : Type} (g : Grid ρ)

def extent (b : CoarseBounds ρ) (axis : Fin 3) : Nat :=
  (g.cell (b.maximum axis) - g.cell (b.minimum axis) + 1).toNat

def countAxis (b : CoarseBounds ρ) (total : Nat) (axis : Fin 3) : Except BoxError Nat :=
  if g.cell (b.minimum axis) < -2 ^ 31 ∨ g.cell (b.maximum axis) > 2 ^ 31 - 1 then .error .range
  else if extent g b axis > maximumPackageCoarseQueryCells / total then .error .cells
  else .ok (total * extent g b axis)

/-- The loop over the axes, as all three functions run it; each of them answers the errors in its own way. -/
def cellCount (b : CoarseBounds ρ) : Except BoxError Nat := [0,1,2].foldlM (countAxis g b) 1

/-- The cells of a box as the nested loops visit them. -/
def boxCells (space : String) (b : CoarseBounds ρ) : List Cell :=
  (List.range (extent g b 0)).flatMap fun x : Nat => (List.range (extent g b 1)).flatMap fun y : Nat =>
    (List.range (extent g b 2)).map fun z : Nat =>
      ⟨space,g.cell (b.minimum 0) + x,g.cell (b.minimum 1) + y,g.cell (b.minimum 2) + z⟩

/-- The cell that a page computes from a cell's number. -/
def cellAt (space : String) (b : CoarseBounds ρ) (n : Nat) : Cell :=
  ⟨space,g.cell (b.minimum 0) + (n / (extent g b 1 * extent g b 2) : Nat),
    g.cell (b.minimum 1) + (n / extent g b 2 % extent g b 1 : Nat),g.cell (b.minimum 2) + (n % extent g b 2 : Nat)⟩

section
variable {g} {space : String} {b : CoarseBounds ρ}

theorem flatMap_range {α : Type} (f : Nat → Nat → α) (m n : Nat) :
    ((List.range m).flatMap fun x => (List.range n).map (f x)) = (List.range (m * n)).map fun k => f (k / n) (k % n) := by
  induction m with
  | zero => simp
  | succ m ih =>
    rw [range_succ,flatMap_append,ih,Nat.succ_mul,range_add,map_append,flatMap_singleton,
      map_map]
    congr 1
    refine map_congr_left fun y mem => ?_
    have less := mem_range.mp mem
    rw [Function.comp_apply,Nat.mul_comm,Nat.mul_add_div (by omega),Nat.mul_add_mod,Nat.div_eq_of_lt less,
      Nat.mod_eq_of_lt less,Nat.add_zero]

theorem boxCells_eq :
    boxCells g space b = (List.range (extent g b 0 * (extent g b 1 * extent g b 2))).map (cellAt g space b) := by
  simp only [boxCells,flatMap_range]
  refine map_congr_left fun n _ => ?_
  rw [cellAt,Nat.mod_mul_left_div_self,Nat.mod_mul_left_mod]

theorem boxCells_nodup : (boxCells g space b).Nodup := by
  rw [boxCells_eq]
  refine nodup_range.map fun n m same => ?_
  simp only [cellAt,Cell.mk.injEq,Prod.mk.injEq,true_and,add_right_inj,Int.natCast_inj] at same
  obtain ⟨x,y,z⟩ := same
  rw [Nat.mul_comm,← Nat.div_div_eq_div_mul,← Nat.div_div_eq_div_mul] at x
  have row : n / extent g b 2 = m / extent g b 2 := by
    rw [← Nat.div_add_mod (n / extent g b 2) (extent g b 1),x,y,Nat.div_add_mod]
  rw [← Nat.div_add_mod n (extent g b 2),row,z,Nat.div_add_mod]

theorem cellCount_ok {total : Nat} (counted : cellCount g b = .ok total) :
    total = extent g b 0 * (extent g b 1 * extent g b 2) := by
  have all (l : List (Fin 3)) : ∀ n, l.foldlM (countAxis g b) n = .ok total → total = n * (l.map (extent g b)).prod := by
    induction l with
    | nil =>
      rintro n ⟨⟩
      simp
    | cons axis l ih =>
      intro n run
      rw [foldlM_cons,countAxis] at run
      split_ifs at run
      · cases run
      · cases run
      · rw [ih _ run,map_cons,prod_cons,Nat.mul_assoc]
  simpa using all _ 1 counted

theorem mem_boxCells {c : Cell} : c ∈ boxCells g space b ↔ c.space = space ∧
    (g.cell (b.minimum 0) ≤ c.coordinate.1 ∧ c.coordinate.1 ≤ g.cell (b.maximum 0)) ∧
    (g.cell (b.minimum 1) ≤ c.coordinate.2.1 ∧ c.coordinate.2.1 ≤ g.cell (b.maximum 1)) ∧
    g.cell (b.minimum 2) ≤ c.coordinate.2.2 ∧ c.coordinate.2.2 ≤ g.cell (b.maximum 2) := by
  simp only [boxCells,mem_flatMap,mem_map,mem_range,extent]
  constructor
  · rintro ⟨x,hx,y,hy,z,hz,rfl⟩
    refine ⟨rfl,?_⟩
    dsimp only
    omega
  · obtain ⟨_,x,y,z⟩ := c
    rintro ⟨rfl,hx,hy,hz⟩
    dsimp only at hx hy hz
    refine ⟨(x - g.cell (b.minimum 0)).toNat,by omega,(y - g.cell (b.minimum 1)).toNat,by omega,
      (z - g.cell (b.minimum 2)).toNat,by omega,?_⟩
    simp only [Cell.mk.injEq,Prod.mk.injEq,true_and]
    omega

end

def push (index : Nat) (s : Index) (c : Cell) : Except String Index :=
  if s.cells c = [] ∧ s.populated ≥ maximumPackageCoarseIndexCells then
    .error "[Content:CoarseIndex] populated cell limit exceeded"
  else
    .ok
      { s with
        cells := Function.update s.cells c (s.cells c ++ [index])
        populated := if s.cells c = [] then s.populated + 1 else s.populated
        memberships := s.memberships + 1 }

variable [LinearOrder ρ]

def boundsValid (b : CoarseBounds ρ) : Bool :=
  ∀ axis, g.isFinite (b.minimum axis) ∧ g.isFinite (b.maximum axis) ∧ b.minimum axis ≤ b.maximum axis

def insertEntry (s : Index) (entry : ContentEntry ρ × Nat) : Except String Index :=
  match entry.1.coarseBounds with
  | none => .ok s
  | some b =>
    if !boundsValid g b then .error "Package coarse bounds are invalid"
    else
      match cellCount g b with
      | .error .range => .error "Package coarse bounds exceed the addressable range"
      | .error .cells => .error "Package content overlaps too many coarse cells"
      | .ok count =>
        if count > maximumPackageCoarseIndexMemberships - s.memberships then
          .error "[Content:CoarseIndex] aggregate membership limit exceeded"
        else (boxCells g entry.1.packageSpaceKey b).foldlM (push entry.2) s

def build (epoch : Nat) (entries : List (ContentEntry ρ)) : Except String Index :=
  if entries.length > maximumPackageContentUnits then .error "Package coarse index exceeds the content-unit limit"
  else entries.zipIdx.foldlM (insertEntry g) { epoch }

/-- One membership of a query, unless it has enough results. -/
def visit (maximumResults : Nat) (result : List Nat) (index : Nat) : List Nat :=
  if result.length < maximumResults ∧ index ∉ result then result ++ [index] else result

def query (s : Index) (space : String) (b : CoarseBounds ρ) (maximumResults : Nat) : List Nat :=
  if maximumResults = 0 ∨ !boundsValid g b ∨ space = "" then []
  else
    match cellCount g b with
    | .error _ => []
    | .ok _ => (((boxCells g space b).flatMap s.cells).foldl (visit maximumResults) []).mergeSort

end

structure QueryLimits where
  maximumCells : Nat := maximumPackageCoarseQueryCells
  maximumMembershipVisits : Nat := 4096
  maximumResults : Nat := 1024

inductive QueryStatus
  | complete
  | more
  | invalidInput
  | invalidCursor
  | queryCellLimit
deriving DecidableEq

structure QueryCursor (ρ : Type) where
  indexEpoch : Nat
  packageSpaceKey : String
  bounds : CoarseBounds ρ
  nextCell : Nat
  nextMembership : Nat

structure QueryPage (ρ : Type) where
  status : QueryStatus := .invalidInput
  entries : List Nat := []
  nextCursor : Option (QueryCursor ρ) := none
  cellsVisited : Nat := 0
  membershipVisits : Nat := 0

def QueryLimits.isAccepted (limits : QueryLimits) : Bool :=
  limits.maximumCells ≠ 0 ∧ limits.maximumCells ≤ maximumPackageCoarseQueryCells ∧
    limits.maximumMembershipVisits ≠ 0 ∧
    limits.maximumMembershipVisits ≤ maximumPackageCoarseQueryMembershipVisits ∧
    limits.maximumResults ≠ 0 ∧ limits.maximumResults ≤ maximumPackageContentUnits

section
variable {ρ : Type} [LinearOrder ρ] (g : Grid ρ)

def pageLoop (members : Nat → List Nat) (limits : QueryLimits) (total : Nat)
    (page : QueryPage ρ) (nextCell nextMembership : Nat) : QueryPage ρ × Option (Nat × Nat) :=
  if nextCell < total ∧ page.cellsVisited < limits.maximumCells ∧
      page.membershipVisits < limits.maximumMembershipVisits ∧ page.entries.length < limits.maximumResults then
    let page := { page with cellsVisited := page.cellsVisited + 1 }
    if members nextCell = [] then
      if nextMembership ≠ 0 then ({ page with status := .invalidCursor },none)
      else pageLoop members limits total page (nextCell + 1) nextMembership
    else if nextMembership > (members nextCell).length then ({ page with status := .invalidCursor },none)
    else
      let taken := ((members nextCell).drop nextMembership).take
        (min (limits.maximumMembershipVisits - page.membershipVisits) (limits.maximumResults - page.entries.length))
      let page :=
        { page with entries := page.entries ++ taken, membershipVisits := page.membershipVisits + taken.length }
      if nextMembership + taken.length ≠ (members nextCell).length then
        (page,some (nextCell,nextMembership + taken.length))
      else pageLoop members limits total page (nextCell + 1) 0
  else (page,some (nextCell,nextMembership))
termination_by total - nextCell

def queryPage (s : Index) (space : String) (b : CoarseBounds ρ) (limits : QueryLimits)
    (cursor : Option (QueryCursor ρ)) : QueryPage ρ :=
  if space = "" ∨ space.utf8ByteSize > maximumPackageSpaceKeyBytes ∨ !boundsValid g b ∨ !limits.isAccepted then {}
  else
    match cellCount g b with
    | .error .range => {}
    | .error .cells => { status := .queryCellLimit }
    | .ok total =>
      if cursor.any fun c =>
          c.indexEpoch ≠ s.epoch ∨ c.packageSpaceKey ≠ space ∨ c.bounds ≠ b ∨ c.nextCell ≥ total then
        { status := .invalidCursor }
      else
        match pageLoop (fun n => s.cells (cellAt g space b n)) limits total {} ((cursor.map (·.nextCell)).getD 0)
          ((cursor.map (·.nextMembership)).getD 0) with
        | (page,none) => page
        | (page,some (nextCell,nextMembership)) =>
          if nextCell = total then { page with status := .complete }
          else { page with nextCursor := some ⟨s.epoch,space,b,nextCell,nextMembership⟩, status := .more }

def pages (s : Index) (space : String) (b : CoarseBounds ρ) (limits : Nat → QueryLimits)
    (cursor : Option (QueryCursor ρ)) : Nat → QueryPage ρ
  | 0 => queryPage g s space b (limits 0) cursor
  | k + 1 => pages s space b (fun j => limits (j + 1)) (queryPage g s space b (limits 0) cursor).nextCursor k

/-! ### The index -/

variable {g} {s t : Index} {space : String} {b : CoarseBounds ρ} {entries : List (ContentEntry ρ)}

def covers (g : Grid ρ) (c : Cell) (e : ContentEntry ρ) : Bool :=
  e.coarseBounds.any fun b => c ∈ boxCells g e.packageSpaceKey b

def coverers (g : Grid ρ) (entries : List (ContentEntry ρ)) (c : Cell) (k : Nat) : List Nat :=
  (List.range k).filter fun i => entries[i]?.any (covers g c)

theorem foldlM_push {index : Nat} {l : List Cell} (nodup : l.Nodup) (pushed : l.foldlM (push index) s = .ok t) (c : Cell) :
    t.cells c = s.cells c ++ if c ∈ l then [index] else [] := by
  induction l generalizing s with
  | nil =>
    cases pushed
    simp
  | cons d l ih =>
    obtain ⟨other,nodup⟩ := nodup_cons.mp nodup
    rw [foldlM_cons,push] at pushed
    by_cases full : s.cells d = [] ∧ s.populated ≥ maximumPackageCoarseIndexCells
    · rw [if_pos full] at pushed
      cases pushed
    · rw [if_neg full] at pushed
      rw [ih nodup pushed]
      by_cases same : c = d
      · simp [same,other]
      · simp [same]

theorem insertEntry_cells {e : ContentEntry ρ} {index : Nat} (inserted : insertEntry g s (e,index) = .ok t)
    (c : Cell) : t.cells c = s.cells c ++ if covers g c e then [index] else [] := by
  unfold insertEntry at inserted
  cases bounds : e.coarseBounds with
  | none =>
    rw [bounds] at inserted
    cases inserted
    simp [covers,bounds]
  | some b =>
    rw [bounds] at inserted
    dsimp only at inserted
    split_ifs at inserted
    split at inserted
    · cases inserted
    · cases inserted
    · split_ifs at inserted
      simp [foldlM_push boxCells_nodup inserted,covers,bounds]

theorem build_cells {epoch : Nat} (built : build g epoch entries = .ok t) (c : Cell) :
    t.cells c = coverers g entries c entries.length := by
  have all (rest : List (ContentEntry ρ)) : ∀ done s, entries = done ++ rest →
      s.cells c = coverers g entries c done.length →
      (rest.zipIdx done.length).foldlM (insertEntry g) s = .ok t →
      t.cells c = coverers g entries c entries.length := by
    induction rest with
    | nil =>
      rintro done s split sofar ⟨⟩
      rw [sofar,split,append_nil]
    | cons e rest ih =>
      intro done s split sofar run
      rw [zipIdx_cons,foldlM_cons] at run
      rcases inserted : insertEntry g s (e,done.length) with message | r
      · rw [inserted] at run
        cases run
      · rw [inserted] at run
        refine ih (done ++ [e]) r (by simp [split]) ?_ (by rwa [length_append])
        rw [insertEntry_cells inserted,sofar,coverers,coverers,length_append,length_singleton,
          range_succ,filter_append,filter_singleton]
        simp [split]
  unfold build at built
  split_ifs at built
  exact all entries [] _ rfl rfl built

theorem mem_visit {bound maximumResults : Nat} (few : bound ≤ maximumResults) {l result : List Nat}
    (nodup : result.Nodup) (below : ∀ i ∈ result ++ l, i < bound) (i : Nat) :
    i ∈ l.foldl (visit maximumResults) result ↔ i ∈ result ∨ i ∈ l := by
  induction l generalizing result with
  | nil => simp
  | cons x l ih =>
    rw [foldl_cons,visit]
    split_ifs with new
    · rw [ih (nodup.append (by simp) (by simpa using new.2)) (by simpa [or_assoc] using below)]
      simp [or_assoc]
    · rw [ih nodup fun i mem => below i (by simp at mem ⊢; tauto)]
      have seen : x ∈ result := by
        by_contra fresh
        have more : (x :: result).Nodup := nodup_cons.mpr ⟨fresh,nodup⟩
        have size := (more.subperm fun i mem => mem_range.mpr (below i (by simp at mem ⊢; tauto))).length_le
        simp at size
        exact new ⟨by omega,fresh⟩
      rw [mem_cons]
      exact ⟨fun mem => mem.imp_right .inr,by rintro (old | rfl | mem) <;> simp [*]⟩

/-! ### The pages -/

variable {members : Nat → List Nat} {total n m : Nat}

def remaining (members : Nat → List Nat) (total n m : Nat) : List Nat :=
  ((List.range' n (total - n)).flatMap members).drop m

def distance (members : Nat → List Nat) (total n m : Nat) : Nat := total - n + (remaining members total n m).length

theorem remaining_next (less : n < total) (within : m ≤ (members n).length) :
    remaining members total n m = (members n).drop m ++ remaining members total (n + 1) 0 := by
  rw [remaining,remaining,show total - n = total - (n + 1) + 1 by omega,range'_succ,flatMap_cons,
    drop_append_of_le_length within,drop_zero]

theorem distance_next (less : n < total) (within : m ≤ (members n).length) :
    distance members total n m = distance members total (n + 1) 0 + 1 + ((members n).length - m) := by
  rw [distance,distance,remaining_next less within,length_append,length_drop]
  omega

def Fits (members : Nat → List Nat) (total n m : Nat) : Prop := n ≤ total ∧ m ≤ (members n).length ∧ (n = total → m = 0)

omit [LinearOrder ρ] in
theorem pageLoop_spec (limits : QueryLimits) (page : QueryPage ρ)
    (fits : Fits members total n m) :
    ∃ page' n' m', pageLoop members limits total page n m = (page',some (n',m')) ∧ Fits members total n' m' ∧
      page'.entries ++ remaining members total n' m' = page.entries ++ remaining members total n m ∧
      distance members total n' m' ≤ distance members total n m ∧
      (n < total → page.cellsVisited < limits.maximumCells → page.membershipVisits < limits.maximumMembershipVisits →
        page.entries.length < limits.maximumResults → distance members total n' m' < distance members total n m) := by
  fun_induction pageLoop members limits total page n m with
  | case1 page n m guard page' empty some =>
    have none := fits.2.1
    rw [empty,length_nil,Nat.le_zero] at none
    exact absurd none some
  | case2 page n m guard page' empty none ih =>
    obtain rfl := not_not.mp none
    have next := distance_next guard.1 fits.2.1
    have same := remaining_next guard.1 fits.2.1
    rw [empty,drop_nil,nil_append] at same
    obtain ⟨page'',n',m',run,fits',left,less,-⟩ := ih ⟨guard.1,Nat.zero_le _,fun _ => rfl⟩
    exact ⟨page'',n',m',run,fits',by rw [left,same],by omega,by omega⟩
  | case3 page n m guard page' some past => exact absurd fits.2.1 (by omega)
  | case4 page n m guard page' some past taken page'' part =>
    have within := fits.2.1
    have size : taken.length = min (min (limits.maximumMembershipVisits - page.membershipVisits)
        (limits.maximumResults - page.entries.length)) ((members n).length - m) := by
      rw [length_take,length_drop]
    have all : taken ++ (members n).drop (m + taken.length) = (members n).drop m := by
      rw [← drop_drop]
      exact prefix_iff_eq_append.mp <| take_prefix ..
    have small : m + taken.length ≤ (members n).length := by omega
    have rest := remaining_next guard.1 small
    have next := distance_next guard.1 small
    have first := distance_next guard.1 within
    refine ⟨page'',n,m + taken.length,rfl,⟨fits.1,small,by omega⟩,?_,by omega,by omega⟩
    rw [rest,remaining_next guard.1 within,← all]
    simp [page'',page']
  | case5 page n m guard page' some past taken page'' whole ih =>
    have within := fits.2.1
    have full : taken.length = ((members n).drop m).length := by
      rw [length_drop]
      omega
    have all : taken = (members n).drop m := ( take_prefix ..).eq_of_length full
    have next := distance_next guard.1 within
    obtain ⟨last,n',m',run,fits',left,less,-⟩ := ih ⟨guard.1,Nat.zero_le _,fun _ => rfl⟩
    refine ⟨last,n',m',run,fits',?_,by omega,by omega⟩
    rw [left,remaining_next guard.1 within,← all]
    simp [page'',page']
  | case6 page n m guard =>
    exact ⟨page,n,m,rfl,fits,rfl,le_rfl,fun less cells visits results => absurd ⟨less,cells,visits,results⟩ guard⟩

section
variable (named : space ≠ "" ∧ space.utf8ByteSize ≤ maximumPackageSpaceKeyBytes) (valid : boundsValid g b)
  (counted : cellCount g b = .ok total) (members_eq : members = fun n => s.cells (cellAt g space b n))
  {cursor : Option (QueryCursor ρ)}
  (place : cursor = none ∧ n = 0 ∧ m = 0 ∨ cursor = some ⟨s.epoch,space,b,n,m⟩ ∧ n < total)
  (fits : Fits members total n m)
include named valid counted members_eq place fits

theorem queryPage_spec {limits : QueryLimits} (accepted : limits.isAccepted) :
    let page := queryPage g s space b limits cursor
    page.status = .complete ∧ page.entries = remaining members total n m ∨
      ∃ n' m', page.status = .more ∧ page.nextCursor = some ⟨s.epoch,space,b,n',m'⟩ ∧ n' < total ∧
        Fits members total n' m' ∧ page.entries ++ remaining members total n' m' = remaining members total n m ∧
        distance members total n' m' < distance members total n m := by
  obtain ⟨page,n',m',run,fits',left,-,less⟩ := pageLoop_spec limits ({} : QueryPage ρ) fits
  subst members_eq
  rw [nil_append] at left
  simp only [QueryLimits.isAccepted,ne_eq,decide_eq_true_eq] at accepted
  have start : (cursor.any fun c =>
      c.indexEpoch ≠ s.epoch ∨ c.packageSpaceKey ≠ space ∨ c.bounds ≠ b ∨ c.nextCell ≥ total) = false ∧
      (cursor.map (·.nextCell)).getD 0 = n ∧ (cursor.map (·.nextMembership)).getD 0 = m := by
    rcases place with ⟨rfl,rfl,rfl⟩ | ⟨rfl,inside⟩
    · exact ⟨rfl,rfl,rfl⟩
    · simp [inside]
  unfold queryPage
  rw [if_neg (by simp [QueryLimits.isAccepted,named,valid,accepted]),counted]
  dsimp only
  rw [start.1,if_neg (by decide),start.2.1,start.2.2,run]
  dsimp only
  split_ifs with last
  · refine .inl ⟨rfl,?_⟩
    simpa [last,fits'.2.2 last,remaining] using left
  · have inside : n' < total := lt_of_le_of_ne fits'.1 last
    have below : n < total := by
      rcases place with ⟨-,rfl,-⟩ | ⟨-,below⟩
      · exact Nat.zero_lt_of_lt inside
      · exact below
    exact .inr ⟨n',m',rfl,rfl,inside,fits',left,less below (Nat.pos_of_ne_zero accepted.1)
      (Nat.pos_of_ne_zero accepted.2.2.1) (Nat.pos_of_ne_zero accepted.2.2.2.2.1)⟩

theorem pages_spec (limits : Nat → QueryLimits) (accepted : ∀ k, (limits k).isAccepted) :
    ∃ last, (∀ k < last, (pages g s space b limits cursor k).status = .more) ∧
      (pages g s space b limits cursor last).status = .complete ∧
      ((List.range (last + 1)).flatMap fun k => (pages g s space b limits cursor k).entries) =
        remaining members total n m := by
  induction far : distance members total n m using Nat.strong_induction_on generalizing n m limits cursor with
  | _ far' ih =>
    rcases queryPage_spec named valid counted members_eq place fits (accepted 0) with
      ⟨complete,all⟩ | ⟨n',m',more,next,inside,fits',left,less⟩
    · exact ⟨0,by simp,complete,by simp [pages,all]⟩
    · obtain ⟨last,before,complete,rest⟩ := ih _ (far ▸ less) (.inr ⟨next,inside⟩) fits'
        (fun k => limits (k + 1)) (fun k => accepted (k + 1)) rfl
      refine ⟨last + 1,fun k small => ?_,complete,?_⟩
      · cases k with
        | zero => exact more
        | succ k => exact before k (by omega)
      · rw [range_succ_eq_map,flatMap_cons,flatMap_map]
        exact (congrArg (_ ++ ·) rest).trans left

end

/-- Page after page lists the memberships of the box once, in the order of its cells; as a set they are what a query finds. -/
theorem pages_list (monotone : Monotone g.cell) {epoch : Nat} (built : build g epoch entries = .ok s)
    (named : space ≠ "" ∧ space.utf8ByteSize ≤ maximumPackageSpaceKeyBytes) (valid : boundsValid g b)
    (within : ∃ total, cellCount g b = .ok total) (limits : Nat → QueryLimits)
    (accepted : ∀ k, (limits k).isAccepted) :
    let listing := (boxCells g space b).flatMap s.cells
    (∃ last, (∀ k < last, (pages g s space b limits none k).status = .more) ∧
        (pages g s space b limits none last).status = .complete ∧
        ((range (last + 1)).flatMap fun k => (pages g s space b limits none k).entries) = listing) ∧
      (boxCells g space b).Nodup ∧ (∀ c, (s.cells c).Nodup) ∧
      (∀ maximumResults ≥ entries.length, ∀ i, i ∈ query g s space b maximumResults ↔ i ∈ listing) ∧
      (∀ i e bounds (p : Fin 3 → ρ), entries[i]? = some e → e.packageSpaceKey = space → e.coarseBounds = some bounds →
        (∀ axis, (bounds.minimum axis ≤ p axis ∧ p axis ≤ bounds.maximum axis) ∧
          b.minimum axis ≤ p axis ∧ p axis ≤ b.maximum axis) → i ∈ listing) ∧
      ∀ limits cursor, cursor.indexEpoch ≠ s.epoch ∨ cursor.packageSpaceKey ≠ space ∨ cursor.bounds ≠ b →
        let page := queryPage g s space b limits (some cursor)
        page.entries = [] ∧ page.nextCursor = none ∧ page.status ∈ [.invalidInput,.invalidCursor] := by
  intro listing
  obtain ⟨total,counted⟩ := within
  have listed : listing = remaining (fun n => s.cells (cellAt g space b n)) total 0 0 := by
    simp only [listing,boxCells_eq,remaining,cellCount_ok counted,flatMap_map,drop_zero,Nat.sub_zero,
      range_eq_range']
  have indexed := build_cells built
  refine ⟨?_,boxCells_nodup,fun c => ?_,fun maximumResults many i => ?_,?_,?_⟩
  · rw [listed]
    exact pages_spec named valid counted rfl (.inl ⟨rfl,rfl,rfl⟩) ⟨Nat.zero_le _,Nat.zero_le _,fun _ => rfl⟩ limits accepted
  · rw [indexed]
    exact nodup_range.filter _
  · have below : ∀ i ∈ [] ++ listing, i < entries.length := by
      intro i mem
      obtain ⟨c,-,mem⟩ := mem_flatMap.mp mem
      rw [indexed] at mem
      exact mem_range.mp (mem_filter.mp mem).1
    unfold query
    split_ifs with refused
    · simp only [valid,named.1,Bool.not_true,Bool.false_eq_true,or_false] at refused
      exact iff_of_false not_mem_nil fun mem => absurd (below i mem) (by omega)
    · rw [counted]
      dsimp only
      rw [mem_mergeSort,mem_visit many .nil below]
      simp [listing]
  · rintro i e bounds p there rfl held meets
    refine mem_flatMap.mpr ⟨⟨e.packageSpaceKey,g.cell (p 0),g.cell (p 1),g.cell (p 2)⟩,?_,?_⟩
    · exact mem_boxCells.mpr ⟨rfl,⟨monotone (meets 0).2.1,monotone (meets 0).2.2⟩,
        ⟨monotone (meets 1).2.1,monotone (meets 1).2.2⟩,monotone (meets 2).2.1,monotone (meets 2).2.2⟩
    · rw [indexed,coverers,mem_filter,mem_range]
      refine ⟨(List.getElem?_eq_some_iff.mp there).1,?_⟩
      simp only [there,Option.any_some,covers,held,decide_eq_true_eq]
      exact mem_boxCells.mpr ⟨rfl,⟨monotone (meets 0).1.1,monotone (meets 0).1.2⟩,
        ⟨monotone (meets 1).1.1,monotone (meets 1).1.2⟩,monotone (meets 2).1.1,monotone (meets 2).1.2⟩
  · intro limits cursor other
    unfold queryPage
    split_ifs
    · simp
    · rw [counted]
      dsimp only
      rw [if_pos (by simp; tauto)]
      simp

theorem pages_list_one :
    let g : Grid Int := ⟨fun _ => true,id⟩
    let b : CoarseBounds Int := ⟨fun _ => 0,fun _ => 0⟩
    ∃ s, build g 1 [{ coarseBounds := some b }] = .ok s ∧
      ∃ last, (pages g s "default" b (fun _ => {}) none last).status = .complete := by
  intro g b
  have passes : (build g 1 [{ coarseBounds := some b }]).isOk := by decide +kernel
  rcases built : build g 1 [{ coarseBounds := some b }] with message | s
  · rw [built] at passes
    cases passes
  have named : "default" ≠ "" ∧ "default".utf8ByteSize ≤ maximumPackageSpaceKeyBytes := by decide +kernel
  have valid : boundsValid g b := by decide +kernel
  have within : ∃ total, cellCount g b = .ok total := ⟨1,by decide +kernel⟩
  obtain ⟨last,-,complete,-⟩ := (pages_list monotone_id built named valid within (fun _ => {}) fun _ => by decide).1
  exact ⟨s,rfl,last,complete⟩

end

end Gargantuan.PackageContentCoarseIndex
