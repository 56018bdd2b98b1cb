import Mirror.Js.Text

/-!
Paths of a file system that separates names with `/`: how they are joined and normalised, and which
of them name an entry of a directory.
-/
namespace Js

def slash : CodeUnit := 0x2F

/-- The name of a directory in itself. -/
def dot : JsString := [0x2E]

/-- The name of the directory above. -/
def dots : JsString := [0x2E, 0x2E]

def isAbsolute (path : JsString) : Bool := path.head? = some slash

def segments (path : JsString) : List JsString := path.splitOn slash

/-- One segment of a path, from the names that lead to where the path has come, last ones first.
Only a relative path leads `above` where it begins. -/
def walkSegment (above : Bool) (names : List JsString) (segment : JsString) : List JsString :=
  if segment = [] ∨ segment = dot then names
  else if segment = dots then
    if names.head?.all (· = dots) then (if above then dots :: names else names)
    else names.tail
  else segment :: names

/-- The names that the path leads through, last ones first. -/
def walk (path : JsString) : List JsString :=
  (segments path).foldl (walkSegment (!isAbsolute path)) []

/-- `normalize` of `path`. -/
def normalize (path : JsString) : JsString :=
  if path = [] then dot
  else
    let body := [slash].intercalate (walk path).reverse
    let trailing := if path.getLast? = some slash then [slash] else []
    if isAbsolute path then
      if body = [] then [slash] else slash :: body ++ trailing
    else if body = [] then dot ++ trailing
    else body ++ trailing

/-- `join` of `path`. -/
def join (paths : List JsString) : JsString :=
  normalize ([slash].intercalate (paths.filter (· ≠ [])))

/-- The path leads to an entry of the directory. -/
def Inside (dir path : JsString) : Prop :=
  isAbsolute path = isAbsolute dir ∧ ∃ name, name ≠ dots ∧ walk path = name :: walk dir

/-! ### Segments -/

theorem segments_cons (c : CodeUnit) (path : JsString) :
    segments (c :: path) =
      if c = slash then [] :: segments path else (segments path).modifyHead (c :: ·) := by
  simp only [segments, List.splitOn_cons_eq_if_modifyHead, beq_iff_eq]

theorem segments_ne_nil (path : JsString) : segments path ≠ [] := List.splitOn_ne_nil slash path

theorem segments_intercalate {names : List JsString} (plain : ∀ name ∈ names, slash ∉ name)
    (given : names ≠ []) : segments ([slash].intercalate names) = names :=
  List.splitOn_intercalate slash plain given

/-- What stands before a separator and what stands after it are split on their own. -/
theorem segments_join (path rest : JsString) :
    segments (path ++ slash :: rest) = segments path ++ segments rest :=
  List.splitOn_append_cons_self path rest

theorem segments_plain (path : JsString) : ∀ segment ∈ segments path, slash ∉ segment := by
  induction path with
  | nil => simp [segments, List.splitOn_nil]
  | cons c path ih =>
    obtain ⟨first, rest, split⟩ := List.exists_cons_of_ne_nil (segments_ne_nil path)
    rw [split, List.forall_mem_cons] at ih
    rw [segments_cons, split]
    split_ifs with separator
    · simpa using ih
    · rw [List.modifyHead_cons, List.forall_mem_cons, List.mem_cons, not_or]
      exact ⟨⟨Ne.symm separator, ih.1⟩, ih.2⟩

/-- What is appended goes to the last segment. -/
theorem segments_append (path : JsString) {ending : JsString} (plain : slash ∉ ending) :
    ∃ folders last, segments path = folders ++ [last] ∧
      segments (path ++ ending) = folders ++ [last ++ ending] := by
  induction path with
  | nil => exact ⟨[], [], List.splitOn_nil slash, List.splitOn_eq_singleton plain⟩
  | cons c path ih =>
    obtain ⟨folders, last, split, split'⟩ := ih
    rw [List.cons_append, segments_cons, segments_cons, split, split']
    split_ifs with separator
    · exact ⟨[] :: folders, last, rfl, rfl⟩
    -- a unit goes to the first segment, which may be the last one
    · cases folders with
      | nil => exact ⟨[], c :: last, rfl, rfl⟩
      | cons first folders => exact ⟨(c :: first) :: folders, last, rfl, rfl⟩

/-! ### Walks -/

theorem walkSegment_skip (above : Bool) (names : List JsString) :
    walkSegment above names [] = names := if_pos (.inl rfl)

/-- A segment leaves the names, goes back by one or goes on. -/
theorem walkSegment_cases (above : Bool) (names : List JsString) (segment : JsString) :
    walkSegment above names segment = names ∨ walkSegment above names segment = names.tail ∨
      walkSegment above names segment = segment :: names := by
  simp only [walkSegment]
  split_ifs with skipped up bottom allowed
  · exact .inl rfl
  · exact .inr (.inr (by rw [up]))
  · exact .inl rfl
  · exact .inr (.inl rfl)
  · exact .inr (.inr rfl)

/-- A segment of three units or more is a name. -/
theorem walkSegment_name (above : Bool) (names : List JsString) {segment : JsString}
    (long : 2 < segment.length) : walkSegment above names segment = segment :: names := by
  have proper : ¬(segment = [] ∨ segment = dot) ∧ segment ≠ dots := by
    refine ⟨?_, ?_⟩
    · rintro (rfl | rfl) <;> simp [dot] at long
    · rintro rfl
      simp [dots] at long
  rw [walkSegment, if_neg proper.1, if_neg proper.2]

/-- Every name is where a walk goes on. -/
def Normal (above : Bool) : List JsString → Prop
  | [] => True
  | name :: names =>
    slash ∉ name ∧ walkSegment above names name = name :: names ∧ Normal above names

theorem Normal.walkSegment {above : Bool} {names : List JsString} (normal : Normal above names)
    {segment : JsString} (plain : slash ∉ segment) :
    Normal above (walkSegment above names segment) := by
  rcases walkSegment_cases above names segment with stays | back | on
  · rwa [stays]
  · rw [back]
    cases names with
    | nil => exact normal
    | cons name names => exact normal.2.2
  · rw [on]
    exact ⟨plain, on, normal⟩

theorem Normal.foldl {above : Bool} {names : List JsString} (normal : Normal above names)
    {segments : List JsString} (plain : ∀ segment ∈ segments, slash ∉ segment) :
    Normal above (segments.foldl (Js.walkSegment above) names) := by
  induction segments generalizing names with
  | nil => exact normal
  | cons segment segments ih =>
    rw [List.forall_mem_cons] at plain
    exact ih (normal.walkSegment plain.1) plain.2

theorem walk_normal (path : JsString) : Normal (!isAbsolute path) (walk path) :=
  have start : Normal (!isAbsolute path) [] := trivial
  start.foldl (segments_plain path)

/-- Normal names, walked again, lead to themselves. -/
theorem Normal.replay {above : Bool} {names : List JsString} (normal : Normal above names) :
    names.reverse.foldl (Js.walkSegment above) [] = names := by
  induction names with
  | nil => rfl
  | cons name names ih =>
    rw [List.reverse_cons, List.foldl_append, ih normal.2.2]
    exact normal.2.1

theorem Normal.plain {above : Bool} {names : List JsString} (normal : Normal above names) :
    ∀ name ∈ names, slash ∉ name ∧ name ≠ [] := by
  induction names with
  | nil => simp
  | cons name names ih =>
    obtain ⟨plain, on, rest⟩ := normal
    rw [List.forall_mem_cons]
    refine ⟨⟨plain, ?_⟩, ih rest⟩
    -- an empty segment is no name
    rintro rfl
    rw [walkSegment_skip] at on
    exact absurd on (List.cons_ne_self _ _).symm

/-! ### Normal paths -/

theorem isAbsolute_append {path : JsString} (given : path ≠ []) (rest : JsString) :
    isAbsolute (path ++ rest) = isAbsolute path := by
  cases path with
  | nil => exact absurd rfl given
  | cons c path => rfl

theorem isAbsolute_of_plain {path : JsString} (plain : slash ∉ path) : isAbsolute path = false := by
  cases path with
  | nil => rfl
  | cons c path =>
    rw [List.mem_cons, not_or] at plain
    simpa [isAbsolute] using Ne.symm plain.1

theorem nil_mem_segments {path : JsString} (absolute : isAbsolute path = true) :
    [] ∈ segments path := by
  cases path with
  | nil => cases absolute
  | cons c path =>
    obtain rfl : c = slash := by simpa [isAbsolute] using absolute
    rw [segments_cons, if_pos rfl]
    exact List.mem_cons_self

section

variable {path : JsString}

theorem segments_body (led : walk path ≠ []) :
    segments ([slash].intercalate (walk path).reverse) = (walk path).reverse :=
  segments_intercalate (fun name member =>
    ((walk_normal path).plain name (List.mem_reverse.mp member)).1) (by simpa using led)

/-- The text of a walk's names is not empty and does not begin with a separator. -/
theorem body_relative (led : walk path ≠ []) :
    [slash].intercalate (walk path).reverse ≠ [] ∧
      isAbsolute ([slash].intercalate (walk path).reverse) = false := by
  have named : [] ∉ segments ([slash].intercalate (walk path).reverse) := by
    rw [segments_body led, List.mem_reverse]
    exact fun member => ((walk_normal path).plain [] member).2 rfl
  constructor
  · intro empty
    rw [empty] at named
    exact named (by simp [segments, List.splitOn_nil])
  · by_contra absolute
    exact named (nil_mem_segments (by simpa using absolute))

/-- What `normalize` makes of a path that leads through some names. -/
theorem normalize_of_walk (led : walk path ≠ []) :
    normalize path =
      (if isAbsolute path then [slash] else []) ++ [slash].intercalate (walk path).reverse ++
        if path.getLast? = some slash then [slash] else [] := by
  have given : path ≠ [] := by
    rintro rfl
    exact led (by decide)
  simp only [normalize, if_neg given, if_neg (body_relative led).1]
  split_ifs <;> simp

theorem isAbsolute_normalize (path : JsString) :
    isAbsolute (normalize path) = isAbsolute path := by
  by_cases none : walk path = []
  · simp only [normalize, none]
    split_ifs with empty absolute trailing
    · rw [empty]
      rfl
    all_goals simp_all [isAbsolute, dot, slash]
  · rw [normalize_of_walk none]
    cases absolute : isAbsolute path with
    | true => rfl
    | false =>
      simp only [Bool.false_eq_true, if_false, List.nil_append]
      rw [isAbsolute_append (body_relative none).1, (body_relative none).2]

/-- A path leads where it led before it was normalised. -/
theorem walk_normalize (path : JsString) : walk (normalize path) = walk path := by
  by_cases none : walk path = []
  · rw [none]
    simp only [normalize, none]
    split_ifs <;> decide
  · rw [walk, isAbsolute_normalize, normalize_of_walk none, List.append_assoc]
    have bare : (if path.getLast? = some slash then [slash] else []) = [] ∨
        (if path.getLast? = some slash then [slash] else []) = [slash] := by
      split_ifs
      · exact .inr rfl
      · exact .inl rfl
    generalize (if path.getLast? = some slash then [slash] else []) = trailing at bare ⊢
    -- the separators before and after the names stand beside empty segments
    have body : (segments ([slash].intercalate (walk path).reverse ++ trailing)).foldl
        (walkSegment (!isAbsolute path)) [] = walk path := by
      rcases bare with rfl | rfl
      · rw [List.append_nil, segments_body none, (walk_normal path).replay]
      · rw [segments_join, segments_body none, List.foldl_append, (walk_normal path).replay]
        exact walkSegment_skip (!isAbsolute path) (walk path)
    split_ifs with absolute
    · rw [List.singleton_append, segments_cons, if_pos rfl, List.foldl_cons, walkSegment_skip]
      exact body
    · exact body

end

/-! ### Entries of a directory -/

/-- From the directory the folders of the name lead back to it. -/
def Returns (dir name : JsString) : Prop :=
  (dir = [] → isAbsolute name = false) ∧
    (segments name).dropLast.foldl (walkSegment (!isAbsolute dir)) (walk dir) = walk dir

instance (dir name : JsString) : Decidable (Returns dir name) :=
  inferInstanceAs (Decidable (_ ∧ _))

/-- A name that has no separator stays in every directory. -/
theorem returns_of_plain {dir name : JsString} (plain : slash ∉ name) : Returns dir name := by
  refine ⟨fun _ => isAbsolute_of_plain plain, ?_⟩
  rw [segments, List.splitOn_eq_singleton plain]
  rfl

theorem inside_of_walk {dir path name : JsString} {names : List JsString} (long : 2 < name.length)
    (same : isAbsolute path = isAbsolute dir) (leads : walk path = name :: names) :
    Inside dir path ↔ names = walk dir := by
  constructor
  · rintro ⟨-, name', -, leads'⟩
    rw [leads] at leads'
    exact (List.cons.inj leads').2
  · rintro rfl
    refine ⟨same, name, ?_, leads⟩
    rintro rfl
    simp [dots] at long

/-- A file of a name with an ending is in the directory exactly when the name's folders are no way
out of it. -/
theorem inside_join_iff (dir name : JsString) {ending : JsString} (plain : slash ∉ ending)
    (long : 2 < ending.length) : Inside dir (join [dir, name ++ ending]) ↔ Returns dir name := by
  obtain ⟨folders, last, split, split'⟩ := segments_append name plain
  have given : name ++ ending ≠ [] := by
    intro empty
    rw [(List.append_eq_nil_iff.mp empty).2] at long
    simp at long
  have long' : 2 < (last ++ ending).length := by
    rw [List.length_append]
    omega
  have walked (above : Bool) (names : List JsString) :
      (segments (name ++ ending)).foldl (walkSegment above) names =
        (last ++ ending) :: folders.foldl (walkSegment above) names := by
    rw [split', List.foldl_append]
    exact walkSegment_name above _ long'
  rw [Returns, split, List.dropLast_concat]
  by_cases here : dir = []
  -- nothing stands before the name, which may begin at the root
  · subst here
    have joined : join [[], name ++ ending] = normalize (name ++ ending) := by
      simp [join, given]
    have begins : isAbsolute (name ++ ending) = isAbsolute name := by
      cases name with
      | nil => exact isAbsolute_of_plain plain
      | cons c name => rfl
    rw [joined]
    cases absolute : isAbsolute name with
    | true =>
      constructor
      · rintro ⟨same, -⟩
        rw [isAbsolute_normalize, begins, absolute] at same
        cases same
      · rintro ⟨relative, -⟩
        cases relative rfl
    | false =>
      have led : walk (normalize (name ++ ending)) =
          (last ++ ending) :: folders.foldl (walkSegment true) [] := by
        rw [walk_normalize, walk, begins, absolute]
        exact walked true []
      rw [inside_of_walk long' (by rw [isAbsolute_normalize, begins, absolute]; rfl) led]
      exact ⟨fun back => ⟨fun _ => rfl, back⟩, And.right⟩
  · have joined : join [dir, name ++ ending] = normalize (dir ++ slash :: (name ++ ending)) := by
      simp [join, here, given]
    have begins : isAbsolute (normalize (dir ++ slash :: (name ++ ending))) = isAbsolute dir := by
      rw [isAbsolute_normalize, isAbsolute_append here]
    have led : walk (normalize (dir ++ slash :: (name ++ ending))) =
        (last ++ ending) :: folders.foldl (walkSegment (!isAbsolute dir)) (walk dir) := by
      rw [walk_normalize, walk, isAbsolute_append here, segments_join, List.foldl_append]
      exact walked _ _
    rw [joined, inside_of_walk long' begins led]
    exact ⟨fun back => ⟨fun empty => absurd empty here, back⟩, And.right⟩

end Js
