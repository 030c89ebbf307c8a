namespace GraphScript

/-!
# Maps from names, in the order of first insertion

Attribute lists, the nodes of a graph, the variables of a scope and the
registered commands are all tables of this kind: each name occurs once, and a
name that is written again keeps its place. The distinctness of the names is
part of the type.
-/

/-- A list of named values in which no name occurs twice. -/
structure NameMap (α : Type) where
  entries : List (String × α)
  distinct : (entries.map Prod.fst).Nodup

namespace NameMap

variable {α : Type}

theorem ext
    {left right : NameMap α}
    (same : left.entries = right.entries) :
    left = right := by
  cases left
  cases right
  cases same
  rfl

/-- The map without entries. -/
def empty :
    NameMap α :=
  ⟨[], List.nodup_nil⟩

instance : EmptyCollection (NameMap α) where
  emptyCollection := empty

instance : Inhabited (NameMap α) where
  default := empty

/-- The names in order of first insertion. -/
def keys
    (map : NameMap α) :
    List String :=
  map.entries.map Prod.fst

/-- The values in order of their names' first insertion. -/
def values
    (map : NameMap α) :
    List α :=
  map.entries.map Prod.snd

/-- The number of entries. -/
def size
    (map : NameMap α) :
    Nat :=
  map.entries.length

/-- Whether there are no entries. -/
def isEmpty
    (map : NameMap α) :
    Bool :=
  map.entries.isEmpty

/-- The value of the first entry with the given name. -/
def find? :
    List (String × α) →
    String →
    Option α
  | [], _ =>
      none
  | (key, value) :: rest, name =>
      if key = name then
        some value
      else
        find? rest name

/-- The value stored under a name. -/
def get?
    (map : NameMap α)
    (name : String) :
    Option α :=
  find? map.entries name

/-- Whether a value is stored under a name. -/
def contains
    (map : NameMap α)
    (name : String) :
    Bool :=
  (map.get? name).isSome

/--
Change the value under a name in its place, or append the name.

The function is given the value that was there.
-/
def alterEntries
    (name : String)
    (change : Option α → α) :
    List (String × α) →
    List (String × α)
  | [] =>
      [(name, change none)]
  | (key, value) :: rest =>
      if key = name then
        (key, change (some value)) :: rest
      else
        (key, value) :: alterEntries name change rest

theorem mem_keys_alterEntries
    (name : String)
    (change : Option α → α)
    (entries : List (String × α))
    (other : String) :
    other ∈ (alterEntries name change entries).map Prod.fst ↔
      other = name ∨ other ∈ entries.map Prod.fst := by
  induction entries with
  | nil =>
      simp [alterEntries]
  | cons entry rest inductionHypothesis =>
      rcases entry with ⟨key, value⟩
      by_cases same : key = name
      · subst same
        simp [alterEntries]
      · simp only [alterEntries, same, if_false, List.map_cons,
          List.mem_cons, inductionHypothesis]
        constructor
        · rintro (isKey | isName | inRest)
          · exact .inr (.inl isKey)
          · exact .inl isName
          · exact .inr (.inr inRest)
        · rintro (isName | isKey | inRest)
          · exact .inr (.inl isName)
          · exact .inl isKey
          · exact .inr (.inr inRest)

theorem nodup_alterEntries
    (name : String)
    (change : Option α → α)
    {entries : List (String × α)}
    (distinct : (entries.map Prod.fst).Nodup) :
    ((alterEntries name change entries).map Prod.fst).Nodup := by
  induction entries with
  | nil =>
      simp [alterEntries]
  | cons entry rest inductionHypothesis =>
      rcases entry with ⟨key, value⟩
      rw [List.map_cons, List.nodup_cons] at distinct
      by_cases same : key = name
      · simp only [alterEntries, same, if_true, List.map_cons,
          List.nodup_cons]
        exact ⟨same ▸ distinct.1, distinct.2⟩
      · simp only [alterEntries, same, if_false, List.map_cons,
          List.nodup_cons]
        refine ⟨?_, inductionHypothesis distinct.2⟩
        intro member
        rcases (mem_keys_alterEntries name change rest key).1 member with
          isName | inRest
        · exact same isName
        · exact distinct.1 inRest

/-- Give a name the value computed from the one it had, appending a new name. -/
def alter
    (map : NameMap α)
    (name : String)
    (change : Option α → α) :
    NameMap α :=
  ⟨alterEntries name change map.entries,
    nodup_alterEntries name change map.distinct⟩

/-- Store a value under a name. A name that is present keeps its place. -/
def insert
    (map : NameMap α)
    (name : String)
    (value : α) :
    NameMap α :=
  map.alter name fun _ => value

/-- Store values one after another. -/
def insertAll
    (map : NameMap α)
    (added : List (String × α)) :
    NameMap α :=
  added.foldl (fun built entry => built.insert entry.1 entry.2) map

/-- The map of a list of named values, in which a later value wins. -/
def ofList
    (listed : List (String × α)) :
    NameMap α :=
  empty.insertAll listed

/-- Lay one map over another: its values win, and its new names come last. -/
def merge
    (base overlay : NameMap α) :
    NameMap α :=
  base.insertAll overlay.entries

/-- Remove a name. -/
def erase
    (map : NameMap α)
    (name : String) :
    NameMap α :=
  ⟨map.entries.filter fun entry => entry.1 ≠ name,
    map.distinct.sublist (List.filter_sublist.map Prod.fst)⟩

@[simp] theorem entries_empty :
    (empty : NameMap α).entries = [] :=
  rfl

@[simp] theorem entries_alter
    (map : NameMap α)
    (name : String)
    (change : Option α → α) :
    (map.alter name change).entries =
      alterEntries name change map.entries :=
  rfl

/-- A changed name reads as the change says, and no other name is touched. -/
theorem get?_alter
    (map : NameMap α)
    (name other : String)
    (change : Option α → α) :
    (map.alter name change).get? other =
      if name = other then
        some (change (map.get? name))
      else
        map.get? other := by
  simp only [get?, entries_alter]
  induction map.entries with
  | nil =>
      simp [alterEntries, find?]
  | cons entry rest inductionHypothesis =>
      rcases entry with ⟨key, value⟩
      by_cases same : key = name
      · subst same
        by_cases here : key = other <;> simp [alterEntries, find?, here]
      · by_cases here : key = other
        · subst here
          simp [alterEntries, find?, same, Ne.symm same]
        · simp [alterEntries, find?, same, here, inductionHypothesis]

/-- A stored value is read back, and no other name is touched. -/
theorem get?_insert
    (map : NameMap α)
    (name other : String)
    (value : α) :
    (map.insert name value).get? other =
      if name = other then some value else map.get? other := by
  rw [insert, get?_alter]

/-- Removing a name that is present leaves fewer entries. -/
theorem size_erase_lt
    (map : NameMap α)
    (name : String)
    (value : α)
    (present : map.get? name = some value) :
    (map.erase name).size < map.size := by
  have shorter
      (entries : List (String × α))
      (found : find? entries name = some value) :
      (entries.filter fun entry => entry.1 ≠ name).length <
        entries.length := by
    induction entries with
    | nil =>
        simp [find?] at found
    | cons entry rest inductionHypothesis =>
        rcases entry with ⟨key, stored⟩
        by_cases same : key = name
        · simpa [same] using
            Nat.lt_succ_of_le (List.length_filter_le _ rest)
        · simpa [same] using
            inductionHypothesis (by simpa [find?, same] using found)
  exact shorter map.entries present

end NameMap

end GraphScript
