import FluxMQ.Logstorage.GroupOps

/-!
# Where consumer groups are kept on disk

The metadata of a group is a file of `logstorage/consumer_group.go` whose path is made of the
percent-encoded names of queue and group, so that every name is one path element. The file's own
content says which group it is of. Deleting a group also removes the file at the path used before
names were encoded.

The consumer state of a group is a directory of `logstorage/consumer_manager.go` whose path is
joined from the names as they are. A slash in a group's name makes it a directory further down.

A path is the list of its elements below the directory that holds all groups or all queues. The
file system is one that takes every name: limits on the length of a name are left out.
-/

namespace FluxMQ

open List

/-! ### Paths -/

/-- The elements of a name that may contain slashes. -/
def pathElements (name : String) : List String :=
  (name.toList.splitOn '/').map String.ofList

/-- One step of `filepath.Clean`: an empty element and `.` go, and `..` takes the one before it
away. -/
def cleanStep (path : List String) (element : String) : List String :=
  if element = "" ∨ element = "." then path
  else if element = ".." then
    match path.getLast? with
    | none => path ++ [".."]
    | some last => if last = ".." then path ++ [".."] else path.dropLast
  else path ++ [element]

/-- `filepath.Join` of path elements. -/
def joinPath (elements : List String) : List String :=
  elements.foldl cleanStep []

/-- How one character of a name is written in a path element. -/
def encodePathChar (c : Char) : List Char :=
  if c = '%' then ['%', '2', '5']
  else if c = '/' then ['%', '2', 'F']
  else if c = '\\' then ['%', '5', 'C']
  else [c]

def encodePathComponent (name : String) : String :=
  if name = "." then "%2E"
  else if name = ".." then "%2E%2E"
  else String.ofList (name.toList.flatMap encodePathChar)

/-- `groupPath`: the metadata file of a group. -/
def groupPath (key : GroupKey) : List String :=
  [encodePathComponent key.1, encodePathComponent key.2 ++ ".json"]

/-- `legacyGroupPath`: the metadata file of a group before names were encoded. -/
def legacyGroupPath (key : GroupKey) : List String :=
  joinPath (pathElements key.1 ++ pathElements (key.2 ++ ".json"))

/-- The directory of the consumer states of a queue. -/
def consumersPath (queueName : String) : List String :=
  joinPath (pathElements queueName ++ ["consumers"])

/-- The directory of a consumer state. -/
def consumerStatePath (key : GroupKey) : List String :=
  joinPath (pathElements key.1 ++ ["consumers"] ++ pathElements key.2)

/-- The name of the directory right below `dir` on the way to `path`. -/
def childOf (dir path : List String) : Option String :=
  if dir.isPrefixOf path then path[dir.length]? else none

/-! ### Plain names -/

/-- A name that is one path element as it stands and cannot be mistaken for an encoded one. -/
def PlainName (name : String) : Prop :=
  name ≠ "" ∧ name ≠ "." ∧ name ≠ ".." ∧ '/' ∉ name.toList ∧ '%' ∉ name.toList

/-- `Glob`, which looks for the segment files of a queue by its name, finds them: the name has no character
that stands for others in a pattern. -/
def isLiteral (queueName : String) : Bool :=
  queueName.toList.all (· ∉ ['*', '?', '[', '\\'])

/-- A queue name whose elements are plain and do not look like the directory of consumer states, and that
is no pattern. -/
def PlainQueue (queueName : String) : Prop :=
  (∀ element ∈ pathElements queueName, PlainName element ∧ element ≠ "consumers") ∧
    isLiteral queueName = true

instance (name : String) : Decidable (PlainName name) :=
  inferInstanceAs (Decidable (_ ∧ _))

instance (queueName : String) : Decidable (PlainQueue queueName) :=
  inferInstanceAs (Decidable (_ ∧ _))

/-- The names of a group's queue and of the group are plain. -/
def PlainKey (key : GroupKey) : Prop :=
  PlainQueue key.1 ∧ PlainName key.2

instance (key : GroupKey) : Decidable (PlainKey key) :=
  inferInstanceAs (Decidable (_ ∧ _))

example : PlainKey ("$dlq/tasks", "workers@orders") ∧ ¬ PlainKey ("tasks", "workers@orders/#") ∧
    ¬ PlainQueue "jobs[1]" := by
  decide +kernel

variable {name : String}

/-- A name without slashes is one element. -/
lemma pathElements_eq_singleton (h : '/' ∉ name.toList) : pathElements name = [name] := by
  have hsplit : name.toList.splitOn '/' = [name.toList] := splitOnP_eq_singleton fun c hc => by
      rw [beq_eq_false_iff_ne]
      rintro rfl
      exact h hc
  rw [pathElements, hsplit, map_singleton, String.ofList_toList]

/-- A name is determined by its elements. -/
lemma pathElements_injective : Function.Injective pathElements := by
  intro x y h
  have hsplit : x.toList.splitOn '/' = y.toList.splitOn '/' :=
    map_injective_iff.2 (fun _ _ h => String.ofList_injective h) h
  have hx : ['/'].intercalate (x.toList.splitOn '/') = x.toList := intercalate_splitOn '/'
  have hy : ['/'].intercalate (y.toList.splitOn '/') = y.toList := intercalate_splitOn '/'
  exact String.toList_injective (hx.symm.trans (hsplit ▸ hy))

/-- Cleaning leaves a path of plain elements as it is. -/
lemma joinPath_eq_self {elements : List String}
    (h : ∀ element ∈ elements, element ≠ "" ∧ element ≠ "." ∧ element ≠ "..") :
    joinPath elements = elements := by
  have hfold : ∀ path, elements.foldl cleanStep path = path ++ elements := by
    induction elements with
    | nil => simp
    | cons element elements ih =>
      intro path
      obtain ⟨hempty, hdot, hdots⟩ := h element mem_cons_self
      rw [foldl_cons, ih fun e he => h e (mem_cons_of_mem _ he), cleanStep,
        if_neg (by simp [hempty, hdot]), if_neg hdots, append_assoc, singleton_append]
  exact hfold []

/-! ### Encoded names -/

/-- The name that a path element stands for. -/
def decodePathChars : List Char → List Char
  | '%' :: '2' :: '5' :: rest => '%' :: decodePathChars rest
  | '%' :: '2' :: 'F' :: rest => '/' :: decodePathChars rest
  | '%' :: '5' :: 'C' :: rest => '\\' :: decodePathChars rest
  | '%' :: '2' :: 'E' :: rest => '.' :: decodePathChars rest
  | c :: rest => c :: decodePathChars rest
  | [] => []

lemma decodePathChars_flatMap (name : List Char) :
    decodePathChars (name.flatMap encodePathChar) = name := by
  induction name with
  | nil => rfl
  | cons c name ih =>
    rw [flatMap_cons, encodePathChar]
    split_ifs with hpercent hslash hback
    · subst hpercent
      exact congrArg _ ih
    · subst hslash
      exact congrArg _ ih
    · subst hback
      exact congrArg _ ih
    · -- A character that is not a percent sign stands for itself.
      rw [singleton_append, decodePathChars]
      · rw [ih]
      all_goals
        rintro rest rfl
        exact absurd rfl hpercent

/-- The encoded name of a path element. -/
lemma decodePathChars_encode (name : String) :
    decodePathChars (encodePathComponent name).toList = name.toList := by
  rw [encodePathComponent]
  split_ifs with hdot hdots
  · subst hdot
    decide
  · subst hdots
    decide
  · rw [String.toList_ofList, decodePathChars_flatMap]

lemma encodePathComponent_injective : Function.Injective encodePathComponent := by
  intro x y h
  apply String.toList_injective
  rw [← decodePathChars_encode, h, decodePathChars_encode]

/-- Different groups have different metadata files. -/
lemma groupPath_injective : Function.Injective groupPath := by
  rintro ⟨q, g⟩ ⟨q', g'⟩ h
  simp only [groupPath, List.cons.injEq, and_true] at h
  obtain ⟨hqueue, hgroup⟩ := h
  have hlist := congrArg String.toList hgroup
  rw [String.toList_append, String.toList_append] at hlist
  exact Prod.ext (encodePathComponent_injective hqueue)
    (encodePathComponent_injective (String.toList_injective (append_cancel_right hlist)))

/-- Without a percent sign every character stands for itself. -/
lemma decodePathChars_eq_self {chars : List Char} (h : '%' ∉ chars) :
    decodePathChars chars = chars := by
  induction chars with
  | nil => rfl
  | cons c chars ih =>
    have hc : c ≠ '%' := fun hc => h (hc ▸ mem_cons_self)
    rw [decodePathChars, ih fun hmem => h (mem_cons_of_mem c hmem)]
    all_goals
      rintro rest rfl
      exact absurd rfl hc

/-- An encoded name without a percent sign is the name itself. -/
lemma eq_encode_of_not_mem (h : '%' ∉ (encodePathComponent name).toList) :
    name = encodePathComponent name := by
  apply String.toList_injective
  rw [← decodePathChars_encode name, decodePathChars_eq_self h]

/-! ### The paths of plain names -/

section

variable {key key' : GroupKey}

lemma PlainName.element (h : PlainName name) : name ≠ "" ∧ name ≠ "." ∧ name ≠ ".." :=
  ⟨h.1, h.2.1, h.2.2.1⟩

lemma PlainName.pathElements (h : PlainName name) : pathElements name = [name] :=
  pathElements_eq_singleton h.2.2.2.1

variable {queueName : String}

lemma PlainQueue.element (h : PlainQueue queueName) :
    ∀ element ∈ FluxMQ.pathElements queueName, element ≠ "" ∧ element ≠ "." ∧ element ≠ ".." :=
  fun element he => (h.1 element he).1.element

lemma PlainQueue.consumersPath (h : PlainQueue queueName) :
    consumersPath queueName = pathElements queueName ++ ["consumers"] := by
  refine joinPath_eq_self fun element he => ?_
  rcases mem_append.1 he with he | he
  · exact h.element element he
  · rw [mem_singleton.1 he]
    decide

lemma PlainKey.consumerStatePath (h : PlainKey key) :
    consumerStatePath key = pathElements key.1 ++ ["consumers", key.2] := by
  rw [FluxMQ.consumerStatePath, h.2.pathElements, joinPath_eq_self]
  · simp
  intro element he
  rcases mem_append.1 he with he | he
  · rcases mem_append.1 he with he | he
    · exact h.1.element element he
    · rw [mem_singleton.1 he]
      decide
  · rw [mem_singleton.1 he]
    exact h.2.element

lemma PlainKey.legacyGroupPath (h : PlainKey key) :
    legacyGroupPath key = pathElements key.1 ++ [key.2 ++ ".json"] := by
  have hslash : '/' ∉ (key.2 ++ ".json").toList := by
    rw [String.toList_append, mem_append]
    rintro (hmem | hmem)
    · exact h.2.2.2.2.1 hmem
    · exact absurd hmem (by decide)
  rw [FluxMQ.legacyGroupPath, pathElements_eq_singleton hslash, joinPath_eq_self]
  intro element he
  rcases mem_append.1 he with he | he
  · exact h.1.element element he
  -- A name that ends in `.json` is none of the special ones.
  rw [mem_singleton.1 he]
  have hlen : 5 ≤ (key.2 ++ ".json").toList.length := by
    rw [String.toList_append, length_append]
    exact Nat.le_add_left 5 _
  refine ⟨?_, ?_, ?_⟩ <;> intro heq <;> rw [heq] at hlen <;> exact absurd hlen (by decide)

/-- The file that a deletion removes at the old path is that of no other plain group. -/
lemma eq_of_legacyGroupPath_eq (h : PlainKey key) (hpath : legacyGroupPath key = groupPath key') :
    key = key' := by
  rw [h.legacyGroupPath, groupPath] at hpath
  obtain ⟨hqueue, hgroup⟩ : pathElements key.1 = [encodePathComponent key'.1] ∧
      [key.2 ++ ".json"] = [encodePathComponent key'.2 ++ ".json"] :=
    append_inj' (hpath.trans (singleton_append).symm) rfl
  -- The queue's name is one element, which has no percent sign, and so is not an encoded one.
  have helement := (h.1.1 _ (hqueue ▸ mem_singleton_self _)).1
  have hname : key'.1 = encodePathComponent key'.1 := eq_encode_of_not_mem helement.2.2.2.2
  have hfirst : key.1 = key'.1 := by
    apply pathElements_injective
    rw [hqueue, ← helement.pathElements, ← hname]
  have hlist := congrArg String.toList (singleton_injective hgroup)
  rw [String.toList_append, String.toList_append] at hlist
  have hid : key.2 = encodePathComponent key'.2 :=
    String.toList_injective (append_cancel_right hlist)
  have hsecond : key'.2 = encodePathComponent key'.2 := eq_encode_of_not_mem (hid ▸ h.2.2.2.2.2)
  exact Prod.ext hfirst (hid.trans hsecond.symm)

lemma PlainQueue.not_mem (h : PlainQueue queueName) : "consumers" ∉ pathElements queueName :=
  fun hmem => (h.1 _ hmem).2 rfl

/-- The directories below that of a queue's consumer states are those of its own groups. -/
lemma childOf_consumersPath_iff {queueName name : String} (hqueue : PlainQueue queueName)
    (h : PlainKey key) : childOf (consumersPath queueName) (consumerStatePath key) = some name ↔
      key = (queueName, name) := by
  rw [childOf, hqueue.consumersPath, h.consumerStatePath]
  constructor
  · intro hchild
    split at hchild
    · rename_i hdir
      obtain ⟨rest, hrest⟩ := isPrefixOf_iff_prefix.1 hdir
      rw [append_assoc, singleton_append] at hrest
      obtain ⟨hsame, -⟩ := append_cons_inj_of_first hqueue.not_mem h.1.not_mem hrest
      rw [hsame] at hchild
      simp at hchild
      exact Prod.ext (pathElements_injective hsame).symm hchild
    · cases hchild
  · rintro rfl
    simp

lemma consumerStatePath_injective (h : PlainKey key) (h' : PlainKey key')
    (hpath : consumerStatePath key = consumerStatePath key') : key = key' := by
  rw [h.consumerStatePath, h'.consumerStatePath] at hpath
  obtain ⟨hqueue, hid⟩ := append_cons_inj_of_first h.1.not_mem h'.1.not_mem hpath
  exact Prod.ext (pathElements_injective hqueue) (singleton_injective hid)

end

end FluxMQ
