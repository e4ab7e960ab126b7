import Gargantuan.GltfAccessors

/-!
How the importer of OBJ texts makes a mesh. A corner of a face is known by the numbers that the text
gives it; numbers and vectors are parameters. What the corners mean is stated apart from the map of
the vertices: each number is resolved against the attributes as they stand at its line.
-/
namespace Gargantuan.Obj
open Gltf Option Prod

abbrev Vec3 (α : Type) := α × α × α

/-- The numbers, the computations with vectors, and before which lines the import is cancelled. -/
structure Geometry where
  Number : Type
  parseFloat : List Char → Option Number
  parseInt : List Char → Option Int
  zero : Number
  /-- One less a number. -/
  flip : Number → Number
  add : Vec3 Number → Vec3 Number → Vec3 Number
  /-- The cross product of two sides of a triangle, and whether it is degenerate or not finite. -/
  cross : Vec3 Number → Vec3 Number → Vec3 Number → Vec3 Number
  degenerate : Vec3 Number → Bool
  short : Vec3 Number → Bool
  normalize : Vec3 Number → Vec3 Number
  cancelled : Nat → Bool

/-- The numbers of a corner as they are written, zero where there is none. -/
structure ObjVertexKey where
  position : Int := 0
  textureCoordinate : Int := 0
  normal : Int := 0
  deriving DecidableEq

/-- The places of a corner's attributes. -/
structure Triple where
  position : Nat
  textureCoordinate : Option Nat
  normal : Option Nat
  deriving DecidableEq

def maximumMeshVertices : Nat := 262144
def maximumMeshIndices : Nat := 1048576

def resolveObjIndex (value : Int) (size : Nat) : Option Nat :=
  if 0 < value ∧ value ≤ size then some (value - 1).toNat
  else if value < 0 ∧ -value ≤ size then some (size + value).toNat
  else none

/-- An attribute that need not be there. -/
def resolveOptional (value : Int) (size : Nat) : Option (Option Nat) :=
  if value = 0 then some none else (resolveObjIndex value size).map some

section
variable (γ : Geometry)

/-- A vertex, with the flag that `HasNormal` keeps for it. -/
structure Vertex where
  position : Vec3 γ.Number
  textureCoordinate : γ.Number × γ.Number
  normal : Vec3 γ.Number
  hasNormal : Bool

structure Attributes where
  positions : List (Vec3 γ.Number) := []
  normals : List (Vec3 γ.Number) := []
  textureCoordinates : List (γ.Number × γ.Number) := []

structure Mesh extends Attributes γ where
  vertices : List (Vertex γ) := []
  indices : List Nat := []
  vertexMap : List (ObjVertexKey × Nat) := []
  lineNumber : Nat := 0

def parseObjVertex (token : List Char) : Option ObjVertexKey := do
  let field := fun i : Nat => match (token.splitOn '/')[i]? with
    | none | some [] => some (0 : Int)
    | some slice => (γ.parseInt slice).filter (· ≠ 0)
  let key : ObjVertexKey := ⟨← field 0,← field 1,← field 2⟩
  if key.position ≠ 0 then some key else none

variable {γ}

def Attributes.resolve (a : Attributes γ) (key : ObjVertexKey) : Option Triple := do
  return ⟨← resolveObjIndex key.position a.positions.length,
    ← resolveOptional key.textureCoordinate a.textureCoordinates.length,
    ← resolveOptional key.normal a.normals.length⟩

def Attributes.vertex (a : Attributes γ) (t : Triple) : Vertex γ where
  position := a.positions.getD t.position (γ.zero,γ.zero,γ.zero)
  textureCoordinate := (t.textureCoordinate.bind (a.textureCoordinates[·]?)).getD (γ.zero,γ.zero)
  normal := (t.normal.bind (a.normals[·]?)).getD (γ.zero,γ.zero,γ.zero)
  hasNormal := t.normal.isSome

/-- One attribute more; there are none with too few components. -/
def Attributes.append (a : Attributes γ) : String → List γ.Number → Option (Attributes γ)
  | "v", x :: y :: z :: _ => some { a with positions := a.positions ++ [(x,y,z)] }
  | "vn", x :: y :: z :: _ => some { a with normals := a.normals ++ [(x,y,z)] }
  | "vt", x :: y :: _ => some { a with textureCoordinates := a.textureCoordinates ++ [(x,γ.flip y)] }
  | _, _ => none

def readAttribute (a : Attributes γ) (command : String) (tokens : List (List Char)) :
    Except Diagnostic (Attributes γ) := do
  let values ← tokens.mapM fun token =>
    Gltf.demand (γ.parseFloat token) "MalformedMesh" "OBJ contains a non-finite or invalid number"
  let a ← Gltf.demand (a.append command values) "MalformedMesh" "OBJ vertex attribute has too few components"
  refuse (a.positions.length > maximumMeshVertices ∨ a.normals.length > maximumMeshVertices ∨
    a.textureCoordinates.length > maximumMeshVertices) "MeshLimit" "OBJ attribute count exceeds the asset limit"
  return a

def readCorner (face : List Nat × Mesh γ) (token : List Char) : Except Diagnostic (List Nat × Mesh γ) := do
  let (face,m) := face
  refuse (face.length ≥ 256) "MeshLimit" "OBJ polygon exceeds 256 vertices"
  let key ← Gltf.demand (parseObjVertex γ token) "MalformedMesh" "OBJ face index is invalid"
  match m.vertexMap.lookup key with
  | some index => return (face ++ [index],m)
  | none =>
    let triple ← Gltf.demand (m.resolve key) "InvalidMeshIndex" "OBJ face references an out-of-range attribute"
    refuse (m.vertices.length ≥ maximumMeshVertices) "MeshLimit" "Canonical mesh vertex count exceeds the asset limit"
    let index := m.vertices.length
    return (face ++ [index],
      { m with vertices := m.vertices ++ [m.vertex triple], vertexMap := (key,index) :: m.vertexMap })

/-- The corners of the triangles into which a polygon is cut. -/
def fanOf {α : Type} (first : α) : List α → List α
  | second :: third :: rest => first :: second :: third :: fanOf first (third :: rest)
  | _ => []

def fan {α : Type} : List α → List α
  | [] => []
  | first :: rest => fanOf first rest

def words (line : List Char) : List (List Char) :=
  (line.splitOnP (· ∈ [' ','\t','\n','\x0b','\x0c','\r'])).filter (· ≠ [])

def readLine (m : Mesh γ) (line : List Char) : Except Diagnostic (Mesh γ) := do
  let m := { m with lineNumber := m.lineNumber + 1 }
  refuse (γ.cancelled m.lineNumber) "Cancelled" "Mesh import was cancelled before commit"
  refuse (line.length > 4096) "MeshLimit" "OBJ line exceeds 4096 bytes"
  match words line with
  | [] => return m
  | command :: tokens =>
    let command := String.ofList command
    if command = "v" ∨ command = "vn" ∨ command = "vt" then
      let a ← readAttribute m.toAttributes command tokens
      return { m with toAttributes := a }
    else if command = "f" then
      let (face,m) ← tokens.foldlM readCorner ([],m)
      refuse (face.length < 3) "MalformedTopology" "OBJ face has fewer than three vertices"
      refuse (m.indices.length + (face.length - 2) * 3 > maximumMeshIndices) "MeshLimit"
        "Canonical mesh index count exceeds the asset limit"
      return { m with indices := m.indices ++ fan face }
    else return m

/-- The triangles one after the other: vertices without a normal add up those of their triangles. -/
def addNormals (vertices : List (Vertex γ)) : List Nat → Except Diagnostic (List (Vertex γ))
  | a :: b :: c :: rest =>
    match vertices[a]?, vertices[b]?, vertices[c]? with
    | some x, some y, some z => do
      let cross := γ.cross x.position y.position z.position
      refuse (γ.degenerate cross) "MalformedTopology" "OBJ contains a degenerate or non-finite triangle"
      let add := fun v : Vertex γ => if v.hasNormal then v else { v with normal := γ.add v.normal cross }
      addNormals ([a,b,c].foldl (fun vertices i => vertices.modify i add) vertices) rest
    | _, _, _ => .error ("InvalidMeshIndex","Canonical mesh contains an invalid index")
  | _ => .ok vertices

def lines (text : List Char) : List (List Char) :=
  let all := text.splitOn '\n'
  if all.getLast? = some [] then all.dropLast else all

variable (γ) in
def importMesh (text : List Char) : Except Diagnostic (List (Vertex γ) × List Nat) := do
  refuse (γ.cancelled 0) "Cancelled" "Mesh import was cancelled or exceeded its deadline"
  let m ← (lines text).foldlM readLine ({} : Mesh γ)
  refuse (m.vertices.isEmpty ∨ m.indices.isEmpty) "MalformedTopology" "OBJ contains no renderable triangles"
  let vertices ← addNormals m.vertices m.indices
  refuse (vertices.any fun v => γ.short v.normal) "MalformedTopology" "OBJ generated a zero normal"
  return (vertices.map fun v => { v with normal := γ.normalize v.normal },m.indices)

/-! ### What the corners mean -/

/-- A corner as it is written, and what that stands for at its line. -/
structure Corner where
  key : ObjVertexKey
  triple : Option Triple
  deriving DecidableEq

def Attributes.corner (a : Attributes γ) (token : List Char) : Option Corner :=
  (parseObjVertex γ token).map fun key => ⟨key,a.resolve key⟩

def follow (s : Attributes γ × List Corner) (line : List Char) : Attributes γ × List Corner :=
  match words line with
  | [] => s
  | command :: tokens =>
    let command := String.ofList command
    if command = "v" ∨ command = "vn" ∨ command = "vt" then ((readAttribute s.1 command tokens).toOption.getD s.1,s.2)
    else if command = "f" then (s.1,s.2 ++ fan (tokens.filterMap s.1.corner))
    else s

variable (γ) in
def meaning (text : List Char) : Attributes γ × List Corner := (lines text).foldl follow ({},[])

def WrittenAlike (corners : List Corner) : Prop :=
  ∀ c ∈ corners, ∀ d ∈ corners, c.key = d.key ↔ c.triple = d.triple

def Vertex.Shows (v given : Vertex γ) : Prop :=
  v.position = given.position ∧ v.textureCoordinate = given.textureCoordinate ∧
    (given.hasNormal = true → v.normal = γ.normalize given.normal)

/-- A mesh is what a text means. -/
structure Meant (vertices : List (Vertex γ)) (indices : List Nat) (a : Attributes γ) (corners : List Corner) : Prop where
  length : indices.length = corners.length
  shows : ∀ p ∈ indices.zip corners, ∃ t v, p.2.triple = some t ∧ vertices[p.1]? = some v ∧ v.Shows (a.vertex t)
  shared : ∀ p ∈ indices.zip corners, ∀ q ∈ indices.zip corners, p.1 = q.1 ↔ p.2.triple = q.2.triple
  inside : ∀ i ∈ indices, i < vertices.length

/-- Attributes are only added at the end. -/
structure Attributes.Grows (a b : Attributes γ) : Prop where
  positions : a.positions <+: b.positions
  normals : a.normals <+: b.normals
  textureCoordinates : a.textureCoordinates <+: b.textureCoordinates

structure Known (m : Mesh γ) (corners : List Corner) : Prop where
  vertex : ∀ {k i}, m.vertexMap.lookup k = some i → ∃ c ∈ corners, c.key = k ∧ ∃ t, c.triple = some t ∧
    ∀ {b}, m.toAttributes.Grows b → m.vertices[i]? = some (b.vertex t)
  key : ∀ {k l i}, m.vertexMap.lookup k = some i → m.vertexMap.lookup l = some i → k = l

variable {m m' : Mesh γ} {a b c : Attributes γ}

theorem resolveObjIndex_lt {value : Int} {size place : Nat} (found : resolveObjIndex value size = some place) :
    place < size := by
  unfold resolveObjIndex at found
  split_ifs at found
  all_goals
    cases found
    omega

theorem resolveOptional_lt {value : Int} {size place : Nat} (found : resolveOptional value size = some (some place)) :
    place < size := by
  unfold resolveOptional at found
  split_ifs at found
  · cases found
  · obtain ⟨_,found,same⟩ := map_eq_some_iff.mp found
    cases same
    exact resolveObjIndex_lt found

theorem Attributes.Grows.refl (a : Attributes γ) : a.Grows a :=
  ⟨List.prefix_rfl,List.prefix_rfl,List.prefix_rfl⟩

theorem Attributes.Grows.trans (first : a.Grows b) (second : b.Grows c) : a.Grows c :=
  ⟨first.positions.trans second.positions,first.normals.trans second.normals,
    first.textureCoordinates.trans second.textureCoordinates⟩

theorem vertex_stays {key : ObjVertexKey} {t : Triple} (found : a.resolve key = some t) (grows : a.Grows b) :
    b.vertex t = a.vertex t := by
  simp only [Attributes.resolve,bind_eq_bind,bind_eq_some_iff,pure_def,some.injEq]
    at found
  obtain ⟨place,one,texture,two,normal,three,rfl⟩ := found
  obtain ⟨_,positions⟩ := grows.positions
  obtain ⟨_,normals⟩ := grows.normals
  obtain ⟨_,textures⟩ := grows.textureCoordinates
  have first := resolveObjIndex_lt one
  have second : texture.bind (b.textureCoordinates[·]?) = texture.bind (a.textureCoordinates[·]?) := by
    cases texture with
    | none => rfl
    | some u => simp [← textures,List.getElem?_append_left (resolveOptional_lt two)]
  have third : normal.bind (b.normals[·]?) = normal.bind (a.normals[·]?) := by
    cases normal with
    | none => rfl
    | some n => simp [← normals,List.getElem?_append_left (resolveOptional_lt three)]
  simp [Attributes.vertex,second,third,← positions,List.getElem?_append_left first]

variable {tokens : List (List Char)}

theorem readAttribute_grows {command : String}
    (read : readAttribute a command tokens = .ok b) : a.Grows b := by
  obtain ⟨values,-,read⟩ := bind_ok.mp read
  obtain ⟨next,appended,kept⟩ := demand_bind.mp read
  obtain ⟨-,made⟩ := refuse_bind.mp kept
  cases made
  unfold Attributes.append at appended
  split at appended
  all_goals cases appended
  · exact ⟨List.prefix_append _ _,List.prefix_rfl,List.prefix_rfl⟩
  · exact ⟨List.prefix_rfl,List.prefix_append _ _,List.prefix_rfl⟩
  · exact ⟨List.prefix_rfl,List.prefix_rfl,List.prefix_append _ _⟩

variable {α : Type}

theorem fan_map {β : Type} (f : α → β) (l : List α) : fan (l.map f) = (fan l).map f := by
  cases l with
  | nil => rfl
  | cons first rest =>
    change fanOf (f first) (rest.map f) = (fanOf first rest).map f
    fun_induction fanOf first rest with
    | case1 second third rest ih => simpa [fanOf] using ih
    | case2 rest none =>
      rcases rest with _ | ⟨second,_ | ⟨third,rest⟩⟩
      · rfl
      · rfl
      · exact absurd rfl (none second third rest)

theorem mem_fanOf {x first second : α} {rest : List α} (some : rest ≠ []) :
    x ∈ fanOf first (second :: rest) ↔ x ∈ first :: second :: rest := by
  induction rest generalizing second with
  | nil => exact absurd rfl some
  | cons third rest ih =>
    cases rest with
    | nil => simp [fanOf]
    | cons fourth rest =>
      have ih := @ih third nofun
      simp only [fanOf,List.mem_cons] at ih ⊢
      tauto

theorem mem_fan {x : α} {l : List α} (three : 3 ≤ l.length) : x ∈ fan l ↔ x ∈ l := by
  rcases l with _ | ⟨first,_ | ⟨second,_ | ⟨third,rest⟩⟩⟩
  · simp at three
  · simp at three
  · simp at three
  · exact mem_fanOf nofun

/-- What reading corners leaves as it is. -/
structure Keeps (m m' : Mesh γ) : Prop where
  attributes : m'.toAttributes = m.toAttributes
  indices : m'.indices = m.indices
  lookup : ∀ {k i}, m.vertexMap.lookup k = some i → m'.vertexMap.lookup k = some i

variable {seen : List Corner}

theorem Known.mono {more : List Corner} (known : Known m seen) (subset : seen ⊆ more) : Known m more where
  vertex found := by
    obtain ⟨c,mem,rest⟩ := known.vertex found
    exact ⟨c,subset mem,rest⟩
  key := known.key

theorem Known.lt {k : ObjVertexKey} {i : Nat} (known : Known m seen)
    (found : m.vertexMap.lookup k = some i) : i < m.vertices.length := by
  obtain ⟨-,-,-,t,-,there⟩ := known.vertex found
  exact (List.getElem?_eq_some_iff.mp (there (.refl _))).1

variable {s : List Nat × Mesh γ}

theorem readCorner_ok {face : List Nat} {token : List Char}
    (read : readCorner (face,m) token = .ok s) (known : Known m seen) :
    ∃ i c, s.1 = face ++ [i] ∧ m.corner token = some c ∧ Known s.2 (seen ++ [c]) ∧
      s.2.vertexMap.lookup c.key = some i ∧ Keeps m s.2 := by
  simp only [readCorner,refuse_bind,demand_bind] at read
  obtain ⟨-,key,parsed,read⟩ := read
  have corner : m.corner token = some ⟨key,m.resolve key⟩ := by simp [Attributes.corner,parsed]
  split at read
  next index found =>
    cases read
    exact ⟨index,_,rfl,corner,known.mono (List.subset_append_left _ _),found,rfl,rfl,id⟩
  next absent =>
    simp only [refuse_bind,demand_bind] at read
    obtain ⟨t,resolved,-,made⟩ := read
    cases made
    have lookup (k : ObjVertexKey) : ((key,m.vertices.length) :: m.vertexMap).lookup k =
        if k = key then some m.vertices.length else m.vertexMap.lookup k := by
      by_cases same : k = key
      · simp [same]
      · simp [List.lookup_cons,beq_false_of_ne same,same]
    refine ⟨_,_,rfl,corner,⟨fun {k i} found => ?_,fun {k l i} one two => ?_⟩,by simp,rfl,rfl,
      fun {k i} found => ?_⟩
    · dsimp only at found ⊢
      rw [lookup] at found
      split_ifs at found with same
      · cases found
        refine ⟨_,List.mem_append_right _ (.head _),same.symm,t,resolved,fun grows => ?_⟩
        rw [List.getElem?_concat_length,vertex_stays resolved grows]
      · obtain ⟨c,mem,written,t,stands,there⟩ := known.vertex found
        refine ⟨c,List.mem_append_left _ mem,written,t,stands,fun grows => ?_⟩
        rw [List.getElem?_append_left (known.lt found),there grows]
    · dsimp only at one two
      rw [lookup] at one two
      split_ifs at one two with first second second
      · rw [first,second]
      · cases one
        exact absurd (known.lt two) (Nat.lt_irrefl _)
      · cases two
        exact absurd (known.lt one) (Nat.lt_irrefl _)
      · exact known.key one two
    · dsimp only
      rw [lookup,if_neg]
      · exact found
      · rintro rfl
        rw [absent] at found
        cases found

theorem Keeps.trans {n : Mesh γ} (first : Keeps m m') (second : Keeps m' n) : Keeps m n :=
  ⟨second.attributes.trans first.attributes,second.indices.trans first.indices,second.lookup ∘ first.lookup⟩

theorem readCorners_ok {face : List Nat}
    (read : tokens.foldlM readCorner (face,m) = .ok s) (known : Known m seen) :
    ∃ pairs : List (Nat × Corner), s.1 = face ++ pairs.map fst ∧
      pairs.map snd = tokens.filterMap m.corner ∧ Known s.2 (seen ++ pairs.map snd) ∧
      (∀ p ∈ pairs, s.2.vertexMap.lookup p.2.key = some p.1) ∧ Keeps m s.2 := by
  induction tokens generalizing face m seen with
  | nil =>
    cases read
    exact ⟨[],by simp,rfl,by simpa using known,by simp,rfl,rfl,id⟩
  | cons token tokens ih =>
    rw [List.foldlM_cons] at read
    obtain ⟨⟨next,n⟩,first,read⟩ := bind_ok.mp read
    obtain ⟨i,c,rfl,corner,known,found,keeps⟩ := readCorner_ok first known
    obtain ⟨pairs,faces,corners,known,names,more⟩ := ih read known
    refine ⟨(i,c) :: pairs,by simp [faces],?_,by simpa using known,fun p mem => ?_,keeps.trans more⟩
    · rw [keeps.attributes] at corners
      simp [corner,corners]
    · rcases List.mem_cons.mp mem with rfl | mem
      · exact more.lookup found
      · exact names p mem

structure Follows (m : Mesh γ) (s : Attributes γ × List Corner) : Prop where
  attributes : s.1 = m.toAttributes
  known : Known m s.2
  pairs : ∃ pairs : List (Nat × Corner), pairs.map Prod.fst = m.indices ∧ pairs.map Prod.snd = s.2 ∧
    ∀ p ∈ pairs, m.vertexMap.lookup p.2.key = some p.1

variable {s : Attributes γ × List Corner}

theorem readLine_follows {line : List Char} (follows : Follows m s)
    (read : readLine m line = .ok m') : Follows m' (follow s line) := by
  obtain ⟨_,seen⟩ := s
  obtain ⟨same,known,pairs,indices,corners,names⟩ := follows
  obtain rfl : _ = m.toAttributes := same
  simp only [readLine,refuse_bind] at read
  obtain ⟨-,-,read⟩ := read
  unfold follow
  split at read
  next =>
    cases read
    exact ⟨rfl,⟨known.vertex,known.key⟩,pairs,indices,corners,names⟩
  next command tokens parsed =>
    dsimp only
    split_ifs at read ⊢
    · obtain ⟨b,next,made⟩ := bind_ok.mp read
      cases made
      rw [next]
      refine ⟨rfl,⟨fun found => ?_,known.key⟩,pairs,indices,corners,names⟩
      obtain ⟨c,mem,written,t,stands,there⟩ := known.vertex found
      exact ⟨c,mem,written,t,stands,fun grows => there ((readAttribute_grows next).trans grows)⟩
    · obtain ⟨⟨places,n⟩,run,read⟩ := bind_ok.mp read
      obtain ⟨long,read⟩ := refuse_bind.mp read
      obtain ⟨-,made⟩ := refuse_bind.mp read
      cases made
      obtain ⟨more,faces,meant,known,found,keeps⟩ := readCorners_ok run ⟨known.vertex,known.key⟩
      dsimp only [List.nil_append] at faces meant known found keeps corners
      subst faces
      have three : 3 ≤ more.length := by simpa using long
      refine ⟨keeps.attributes.symm,⟨fun found => ?_,known.key⟩,pairs ++ fan more,?_,?_,fun p mem => ?_⟩
      · obtain ⟨c,mem,rest⟩ := known.vertex found
        refine ⟨c,?_,rest⟩
        rw [← meant,List.mem_append,mem_fan (by simpa using three)]
        exact List.mem_append.mp mem
      · simp [indices,keeps.indices,fan_map]
      · rw [← meant,List.map_append,fan_map,corners]
      · rcases List.mem_append.mp mem with mem | mem
        · exact keeps.lookup (names p mem)
        · exact found p ((mem_fan three).mp mem)
    · cases read
      exact ⟨rfl,⟨known.vertex,known.key⟩,pairs,indices,corners,names⟩

theorem readLines_follows {lines : List (List Char)} (follows : Follows m s)
    (read : lines.foldlM readLine m = .ok m') : Follows m' (lines.foldl follow s) := by
  induction lines generalizing m s with
  | nil =>
    cases read
    exact follows
  | cons line lines ih =>
    rw [List.foldlM_cons] at read
    obtain ⟨n,first,read⟩ := bind_ok.mp read
    exact ih (readLine_follows follows first) read

def Vertex.given (v : Vertex γ) : Vec3 γ.Number × (γ.Number × γ.Number) × Option (Vec3 γ.Number) :=
  (v.position,v.textureCoordinate,if v.hasNormal then some v.normal else none)

theorem given_modify {f : Vertex γ → Vertex γ} (keeps : ∀ v, (f v).given = v.given) (l : List (Vertex γ)) (i : Nat) :
    (l.modify i f).map Vertex.given = l.map Vertex.given := by
  refine List.ext_getElem? fun n => ?_
  by_cases same : i = n
  · simp [same,Function.comp_def,keeps]
  · simp [same]

theorem addNormals_ok {l k : List (Vertex γ)} {indices : List Nat} (run : addNormals l indices = .ok k) :
    k.map Vertex.given = l.map Vertex.given := by
  fun_induction addNormals l indices with
  | case1 l a b c rest x y z _ _ _ cross ih =>
    have keeps (v : Vertex γ) :
        (if v.hasNormal then v else { v with normal := γ.add v.normal cross }).given = v.given := by
      split_ifs with own
      · rfl
      · simp [own,Vertex.given]
    obtain ⟨-,run⟩ := refuse_bind.mp run
    rw [ih run]
    simp [given_modify keeps]
  | case2 => cases run
  | case3 =>
    cases run
    rfl

/-- An accepted mesh is what its text means exactly when corners that are written alike stand for the same. -/
theorem importMesh_meant_iff {text : List Char} {vertices : List (Vertex γ)} {indices : List Nat}
    (accepted : importMesh γ text = .ok (vertices, indices)) :
    Meant vertices indices (meaning γ text).1 (meaning γ text).2 ↔ WrittenAlike (meaning γ text).2 := by
  obtain ⟨-,accepted⟩ := refuse_bind.mp accepted
  obtain ⟨m,read,accepted⟩ := bind_ok.mp accepted
  obtain ⟨-,accepted⟩ := refuse_bind.mp accepted
  obtain ⟨computed,run,accepted⟩ := bind_ok.mp accepted
  obtain ⟨-,made⟩ := refuse_bind.mp accepted
  cases made
  have start : Follows ({} : Mesh γ) ({},[]) := ⟨rfl,⟨by simp,by simp⟩,[],rfl,rfl,by simp⟩
  obtain ⟨attributes,known,pairs,first,second,names⟩ := readLines_follows start read
  change (meaning γ text).1 = m.toAttributes at attributes
  change Known m (meaning γ text).2 at known
  change _ = (meaning γ text).2 at second
  have zip : m.indices.zip (meaning γ text).2 = pairs := (List.zip_of_prod first second).symm
  have given := addNormals_ok run
  have shared {p q : Nat × Corner} (one : p ∈ pairs) (two : q ∈ pairs) : p.1 = q.1 ↔ p.2.key = q.2.key := by
    constructor
    · intro same
      exact known.key (names p one) (same ▸ names q two)
    · intro same
      exact Option.some.inj ((names p one).symm.trans (same ▸ names q two))
  constructor
  · intro meant c one d two
    rw [← second] at one two
    obtain ⟨p,left,rfl⟩ := List.mem_map.mp one
    obtain ⟨q,right,rfl⟩ := List.mem_map.mp two
    exact (shared left right).symm.trans (meant.shared p (zip ▸ left) q (zip ▸ right))
  · intro alike
    have member {p : Nat × Corner} (one : p ∈ pairs) : p.2 ∈ (meaning γ text).2 :=
      second ▸ List.mem_map_of_mem one
    refine ⟨by rw [← first,← second,List.length_map,List.length_map],fun p one => ?_,fun p one q two => ?_,
      fun i one => ?_⟩
    · rw [zip] at one
      obtain ⟨c,mem,written,t,stands,there⟩ := known.vertex (names p one)
      have same := congrArg (·[p.1]?) given
      simp only [List.getElem?_map,there (.refl _),Option.map_some] at same
      obtain ⟨v,found,same⟩ := Option.map_eq_some_iff.mp same
      refine ⟨t,_,((alike _ (member one) c mem).mp written.symm).trans stands,by rw [List.getElem?_map,found]; rfl,?_⟩
      simp only [Vertex.given,Prod.mk.injEq] at same
      rw [attributes]
      refine ⟨same.1,same.2.1,fun own => congrArg γ.normalize ?_⟩
      have last := same.2.2
      rw [if_pos own] at last
      split_ifs at last
      exact Option.some.inj last
    · rw [zip] at one two
      exact (shared one two).trans (alike _ (member one) _ (member two))
    · rw [← first] at one
      obtain ⟨p,there,rfl⟩ := List.mem_map.mp one
      have size := congrArg List.length given
      simp only [List.length_map] at size ⊢
      exact size ▸ known.lt (names p there)

def decimal (digits : List Char) : Option Int :=
  if digits ≠ [] ∧ digits.all Char.isDigit then some (digits.foldl (fun n c => 10 * n + (c.toNat - 48)) 0) else none

def wholeNumber : List Char → Option Int
  | '-' :: digits => (decimal digits).map (- ·)
  | digits => decimal digits

/-- Whole numbers, as singles hold them, for triangles whose normals are along an axis. -/
def wholeNumbers : Geometry where
  Number := Int
  parseFloat := wholeNumber
  parseInt := wholeNumber
  zero := 0
  flip x := 1 - x
  add a b := (a.1 + b.1,a.2.1 + b.2.1,a.2.2 + b.2.2)
  cross a b c :=
    let u := (b.1 - a.1,b.2.1 - a.2.1,b.2.2 - a.2.2)
    let v := (c.1 - a.1,c.2.1 - a.2.1,c.2.2 - a.2.2)
    (u.2.1 * v.2.2 - v.2.1 * u.2.2,u.2.2 * v.1 - v.2.2 * u.1,u.1 * v.2.1 - v.1 * u.2.1)
  degenerate a := a = (0,0,0)
  short a := a = (0,0,0)
  normalize a := (a.1.sign,a.2.1.sign,a.2.2.sign)
  cancelled _ := false

theorem exists_mesh (γ : Geometry) (text : List Char) (indices : List Nat)
    (made : (importMesh γ text).toOption.map snd = some indices) :
    ∃ vertices, importMesh γ text = .ok (vertices,indices) := by
  obtain ⟨⟨vertices,_⟩,some,rfl⟩ := map_eq_some_iff.mp made
  cases accepted : importMesh γ text with
  | error => simp [accepted,Except.toOption] at some
  | ok mesh =>
    rw [accepted] at some
    cases some
    exact ⟨vertices,rfl⟩

def oneTriangle : List Char := "v 0 0 0\nv 1 0 0\nv 0 1 0\nf 1 2 3".toList

theorem oneTriangle_meant : ∃ vertices, importMesh wholeNumbers oneTriangle = .ok (vertices, [0, 1, 2]) ∧
    Meant vertices [0, 1, 2] (meaning wholeNumbers oneTriangle).1 (meaning wholeNumbers oneTriangle).2 := by
  obtain ⟨vertices,accepted⟩ := exists_mesh wholeNumbers oneTriangle [0,1,2] (by decide +kernel)
  refine ⟨vertices,accepted,(importMesh_meant_iff accepted).mpr ?_⟩
  unfold WrittenAlike
  decide +kernel

def twoTriangles : List Char :=
  "v 0 0 0\nv 1 0 0\nv 0 1 0\nf -3 -2 -1\nv 0 0 1\nv 1 0 1\nv 0 1 1\nf -3 -2 -1".toList

/-- The second face stands for three positions of its own, and is given the vertices of the first one. -/
theorem second_triangle_lost : ∃ vertices, importMesh wholeNumbers twoTriangles = .ok (vertices, [0, 1, 2, 0, 1, 2]) ∧
    ¬ Meant vertices [0, 1, 2, 0, 1, 2] (meaning wholeNumbers twoTriangles).1 (meaning wholeNumbers twoTriangles).2 := by
  obtain ⟨vertices,accepted⟩ := exists_mesh wholeNumbers twoTriangles [0,1,2,0,1,2] (by decide +kernel)
  refine ⟨vertices,accepted,fun meant => ?_⟩
  have same := meant.shared (0,⟨{ position := -3 },some ⟨0,none,none⟩⟩) (by decide +kernel)
    (0,⟨{ position := -3 },some ⟨3,none,none⟩⟩) (by decide +kernel)
  exact absurd (same.mp rfl) nofun

end
end Gargantuan.Obj
