import GraphScript.NameMap

namespace GraphScript.NameMap

/-!
# Merging maps

Laying maps over one another keeps each name where it was first inserted and
gives it the value that was inserted last.
-/

variable {α : Type}

/-- The names of a list are the ones under which something is found. -/
theorem find?_eq_none_iff
    {entries : List (String × α)}
    {name : String} :
    find? entries name = none ↔ name ∉ entries.map Prod.fst := by
  induction entries with
  | nil =>
      simp [find?]
  | cons entry rest inductionHypothesis =>
      rcases entry with ⟨key, value⟩
      by_cases same : key = name
      · simp [find?, same]
      · simp [find?, same, Ne.symm same, inductionHypothesis]

/-- Nothing is found for a name exactly if it is not a key. -/
theorem get?_eq_none_iff
    {map : NameMap α}
    {name : String} :
    map.get? name = none ↔ name ∉ map.keys :=
  find?_eq_none_iff

/-- Every key has a value. -/
theorem exists_of_mem_keys
    {map : NameMap α}
    {name : String}
    (member : name ∈ map.keys) :
    ∃ value, map.get? name = some value := by
  cases held : map.get? name with
  | some value =>
      exact ⟨value, rfl⟩
  | none =>
      exact absurd member (get?_eq_none_iff.1 held)

/-- A name with a value is a key. -/
theorem mem_keys_of_get?
    {map : NameMap α}
    {name : String}
    {value : α}
    (held : map.get? name = some value) :
    name ∈ map.keys := by
  apply Decidable.byContradiction
  intro missing
  rw [get?_eq_none_iff.2 missing] at held
  cases held

/-- In a list with distinct names, each entry is the one that is found. -/
theorem find?_of_mem
    {entries : List (String × α)}
    {name : String}
    {value : α}
    (distinct : (entries.map Prod.fst).Nodup)
    (member : (name, value) ∈ entries) :
    find? entries name = some value := by
  induction entries with
  | nil =>
      cases member
  | cons entry rest inductionHypothesis =>
      rcases entry with ⟨key, stored⟩
      rw [List.map_cons, List.nodup_cons] at distinct
      rcases List.mem_cons.1 member with isEntry | inRest
      · cases isEntry
        simp [find?]
      · have other : key ≠ name := by
          rintro rfl
          exact distinct.1 (List.mem_map.2 ⟨_, inRest, rfl⟩)
        simpa [find?, other] using inductionHypothesis distinct.2 inRest

/-- What is found is an entry of the list. -/
theorem mem_of_find?
    {entries : List (String × α)}
    {name : String}
    {value : α}
    (found : find? entries name = some value) :
    (name, value) ∈ entries := by
  induction entries with
  | nil =>
      cases found
  | cons entry rest inductionHypothesis =>
      rcases entry with ⟨key, stored⟩
      rw [find?] at found
      split at found
      · next isHere =>
          cases found
          exact isHere ▸ List.mem_cons_self
      · exact List.mem_cons_of_mem _ (inductionHypothesis found)

/-! ## Removing names -/

/--
Removing the entries of one name changes what is found for it and for no other
name.
-/
theorem find?_filter_ne
    (entries : List (String × α))
    (name other : String) :
    find? (entries.filter fun entry => entry.1 ≠ name) other =
      if name = other then none else find? entries other := by
  induction entries with
  | nil =>
      simp [find?]
  | cons entry rest inductionHypothesis =>
      rcases entry with ⟨key, value⟩
      by_cases removed : key = name
      · simp only [removed, ne_eq, not_true_eq_false, decide_false,
          Bool.false_eq_true, not_false_eq_true, List.filter_cons_of_neg, find?]
        rw [inductionHypothesis]
        split <;> rfl
      · by_cases isOther : key = other
        · have kept : name ≠ other := fun same => removed (isOther.trans same.symm)
          simp [find?, isOther, kept, kept.symm]
        · simpa [find?, removed, isOther] using inductionHypothesis

/-- A removed name reads as nothing, and no other name is touched. -/
theorem get?_erase
    (map : NameMap α)
    (name other : String) :
    (map.erase name).get? other =
      if name = other then none else map.get? other :=
  find?_filter_ne map.entries name other

/-! ## Names -/

/--
Altering an entry keeps the names in their order, and a new name goes to the end.
-/
theorem keys_alterEntries
    (name : String)
    (change : Option α → α)
    (entries : List (String × α)) :
    (alterEntries name change entries).map Prod.fst =
      if name ∈ entries.map Prod.fst then
        entries.map Prod.fst
      else
        entries.map Prod.fst ++ [name] := by
  induction entries with
  | nil =>
      simp [alterEntries]
  | cons entry rest inductionHypothesis =>
      rcases entry with ⟨key, value⟩
      by_cases same : key = name
      · simp [alterEntries, same]
      · simp only [alterEntries, same, if_false, List.map_cons,
          inductionHypothesis, List.mem_cons, Ne.symm same, false_or]
        split <;> rfl

/-- A new name comes last, and a name that is present stays where it is. -/
theorem keys_alter
    (map : NameMap α)
    (name : String)
    (change : Option α → α) :
    (map.alter name change).keys =
      if name ∈ map.keys then map.keys else map.keys ++ [name] :=
  keys_alterEntries name change map.entries

/-- A value under a new name comes last. -/
theorem entries_insert_of_new
    {map : NameMap α}
    {name : String}
    (isNew : name ∉ map.keys)
    (value : α) :
    (map.insert name value).entries = map.entries ++ [(name, value)] := by
  have appended
      (entries : List (String × α))
      (absent : name ∉ entries.map Prod.fst) :
      alterEntries name (fun _ => value) entries =
        entries ++ [(name, value)] := by
    induction entries with
    | nil =>
        rfl
    | cons entry rest inductionHypothesis =>
        rcases entry with ⟨key, stored⟩
        rw [List.map_cons, List.mem_cons, not_or] at absent
        have other : key ≠ name := Ne.symm absent.1
        simp [alterEntries, other, inductionHypothesis absent.2]
  exact appended map.entries isNew

/-- Values under new names come last, in their order. -/
theorem entries_insertAll_of_new
    {map : NameMap α}
    {added : List (String × α)}
    (distinct : (map.keys ++ added.map Prod.fst).Nodup) :
    (map.insertAll added).entries = map.entries ++ added := by
  induction added generalizing map with
  | nil =>
      exact (List.append_nil map.entries).symm
  | cons entry rest inductionHypothesis =>
      have isNew : entry.1 ∉ map.keys := by
        intro listed
        exact (List.nodup_append.mp distinct).2.2 _ listed _
          List.mem_cons_self rfl
      have inserted := entries_insert_of_new isNew entry.2
      have laterDistinct :
          ((map.insert entry.1 entry.2).keys ++ rest.map Prod.fst).Nodup := by
        simpa [keys, inserted] using distinct
      have later := inductionHypothesis laterDistinct
      rw [inserted] at later
      simpa [insertAll] using later

/-- A list of values under distinct names is the map that is made of it. -/
theorem entries_ofList
    {listed : List (String × α)}
    (distinct : (listed.map Prod.fst).Nodup) :
    (ofList listed).entries = listed := by
  have inserted : (empty.insertAll listed).entries = empty.entries ++ listed :=
    entries_insertAll_of_new distinct
  exact inserted

/-- Where all names have one value, that value is found for each of them. -/
theorem find?_map_const
    (names : List String)
    (name : String)
    (value : α) :
    find? (names.map fun other => (other, value)) name =
      if name ∈ names then some value else none := by
  induction names with
  | nil =>
      rfl
  | cons first rest inductionHypothesis =>
      by_cases same : first = name
      · simp [find?, same]
      · simp [find?, same, Ne.symm same, inductionHypothesis]

/-- A name at the end of a list counts only if it was not listed before. -/
theorem eraseDups_append_singleton
    (names : List String)
    (name : String) :
    (names ++ [name]).eraseDups =
      if name ∈ names then names.eraseDups else names.eraseDups ++ [name] := by
  rw [List.eraseDups_append]
  by_cases present : name ∈ names <;>
    simp [List.removeAll, present, List.eraseDups_cons]

/-- The names of a changed map are the names so far and one more. -/
theorem keys_alter_of_listed
    {map : NameMap α}
    {names : List String}
    (listed : map.keys = names.eraseDups)
    (name : String)
    (change : Option α → α) :
    (map.alter name change).keys = (names ++ [name]).eraseDups := by
  rw [keys_alter, eraseDups_append_singleton, listed]
  simp only [List.mem_eraseDups]

/-- Inserting entries lists their names behind the ones there were, each once. -/
theorem keys_insertAll_of_listed
    {map : NameMap α}
    {names : List String}
    (listed : map.keys = names.eraseDups)
    (added : List (String × α)) :
    (map.insertAll added).keys =
      (names ++ added.map Prod.fst).eraseDups := by
  induction added generalizing map names with
  | nil =>
      simpa [insertAll] using listed
  | cons entry rest inductionHypothesis =>
      have inserted :
          (map.insert entry.1 entry.2).keys =
            (names ++ [entry.1]).eraseDups :=
        keys_alter_of_listed listed entry.1 fun _ => entry.2
      simpa [insertAll] using inductionHypothesis inserted

/-- The names of a merged map are those of the base and then the new ones. -/
theorem keys_merge_of_listed
    {base : NameMap α}
    {names : List String}
    (listed : base.keys = names.eraseDups)
    (overlay : NameMap α) :
    (base.merge overlay).keys = (names ++ overlay.keys).eraseDups :=
  keys_insertAll_of_listed listed overlay.entries

/-- A list without repetitions has none to erase. -/
theorem eraseDups_eq_self
    {names : List String}
    (distinct : names.Nodup) :
    names.eraseDups = names := by
  induction names with
  | nil =>
      rfl
  | cons name rest inductionHypothesis =>
      rw [List.nodup_cons] at distinct
      have others : (rest.filter fun other => !other == name) = rest := by
        apply List.filter_eq_self.2
        intro other member
        have different : other ≠ name := fun same => distinct.1 (same ▸ member)
        simpa using different
      rw [List.eraseDups_cons, others, inductionHypothesis distinct.2]

/-- The names of the base stay where they are, and the new ones come last. -/
theorem keys_merge
    (base overlay : NameMap α) :
    (base.merge overlay).keys =
      base.keys ++ overlay.keys.filter fun name => name ∉ base.keys := by
  have listed : base.keys = base.keys.eraseDups :=
    (eraseDups_eq_self base.distinct).symm
  have distinctNew :
      (overlay.keys.filter fun name => name ∉ base.keys).Nodup :=
    overlay.distinct.filter _
  have areNew :
      overlay.keys.removeAll base.keys =
        overlay.keys.filter fun name => name ∉ base.keys := by
    simp [List.removeAll]
  rw [keys_merge_of_listed listed, List.eraseDups_append, ← listed, areNew,
    eraseDups_eq_self distinctNew]

/-! ## Values -/

/--
After inserting entries of different names, these are found first and the old ones
otherwise.
-/
theorem get?_insertAll
    {added : List (String × α)}
    (distinct : (added.map Prod.fst).Nodup)
    (map : NameMap α)
    (name : String) :
    (map.insertAll added).get? name =
      (find? added name).or (map.get? name) := by
  induction added generalizing map with
  | nil =>
      simp [insertAll, find?]
  | cons entry rest inductionHypothesis =>
      rcases entry with ⟨key, value⟩
      rw [List.map_cons, List.nodup_cons] at distinct
      have later := inductionHypothesis distinct.2 (map.insert key value)
      rw [get?_insert] at later
      by_cases same : key = name
      · have absent : find? rest name = none :=
          find?_eq_none_iff.2 (same ▸ distinct.1)
        simpa [insertAll, find?, same, absent] using later
      · simpa [insertAll, find?, same] using later

/-- One value that is inserted under some names is found under each of them. -/
theorem get?_insertAll_const
    (names : List String)
    (value : α)
    (map : NameMap α)
    (name : String) :
    (map.insertAll (names.map fun other => (other, value))).get? name =
      if name ∈ names then some value else map.get? name := by
  induction names generalizing map with
  | nil =>
      simp [insertAll]
  | cons first rest inductionHypothesis =>
      have inserted :
          map.insertAll ((first :: rest).map fun other => (other, value)) =
            (map.insert first value).insertAll
              (rest.map fun other => (other, value)) :=
        rfl
      rw [inserted, inductionHypothesis, get?_insert]
      by_cases isLater : name ∈ rest
      · rw [if_pos isLater, if_pos (List.mem_cons_of_mem _ isLater)]
      · simp only [isLater, if_false, List.mem_cons, or_false, eq_comm]

/-- In a merged map the overlay is asked first and the base otherwise. -/
theorem get?_merge
    (base overlay : NameMap α)
    (name : String) :
    (base.merge overlay).get? name =
      (overlay.get? name).or (base.get? name) :=
  get?_insertAll overlay.distinct base name

/--
A map is laid over another one: its own values win, and its new names come last.
-/
structure LaidOver
    (base own effective : NameMap α) :
    Prop where
  holds :
    ∀ name,
      effective.contains name = true ↔
        own.contains name = true ∨ base.contains name = true
  ownWins :
    ∀ name value, own.get? name = some value → effective.get? name = some value
  otherwise :
    ∀ name, own.contains name = false → effective.get? name = base.get? name
  keys :
    effective.keys = base.keys ++ own.keys.filter fun name => name ∉ base.keys

/-- Merging lays one map over another. -/
theorem laidOver_merge
    (base own : NameMap α) :
    LaidOver base own (base.merge own) where
  holds := by
    intro name
    simp only [contains, get?_merge, Option.isSome_or, Bool.or_eq_true]
  ownWins := by
    intro name value held
    rw [get?_merge, held, Option.some_or]
  otherwise := by
    intro name missing
    rw [contains, Option.isSome_eq_false_iff, Option.isNone_iff_eq_none]
      at missing
    rw [get?_merge, missing, Option.none_or]
  keys := keys_merge base own

/-- A change that gives back the value it is given changes nothing. -/
theorem alter_of_get?
    {map : NameMap α}
    {name : String}
    {value : α}
    {change : Option α → α}
    (present : map.get? name = some value)
    (unchanging : change (some value) = value) :
    map.alter name change = map := by
  have unchanged
      (entries : List (String × α))
      (found : find? entries name = some value) :
      alterEntries name change entries = entries := by
    induction entries with
    | nil =>
        cases found
    | cons entry rest inductionHypothesis =>
        rcases entry with ⟨key, stored⟩
        by_cases same : key = name
        · have isStored : stored = value := by
            simpa [find?, same] using found
          simp [alterEntries, same, isStored, unchanging]
        · simpa [alterEntries, find?, same] using
            inductionHypothesis (by simpa [find?, same] using found)
  exact ext (unchanged map.entries present)

/-- Storing what is there already changes nothing. -/
theorem insert_of_get?
    {map : NameMap α}
    {name : String}
    {value : α}
    (present : map.get? name = some value) :
    map.insert name value = map :=
  alter_of_get? present rfl

/-- Inserting what a map already holds changes nothing. -/
theorem insertAll_of_get?
    {map : NameMap α}
    {added : List (String × α)}
    (present : ∀ entry ∈ added, map.get? entry.1 = some entry.2) :
    map.insertAll added = map := by
  induction added with
  | nil =>
      rfl
  | cons entry rest inductionHypothesis =>
      have first := insert_of_get? (present entry (by simp))
      simp only [insertAll, List.foldl_cons, first]
      exact inductionHypothesis fun other member =>
        present other (List.mem_cons_of_mem _ member)

/-- Laying the same map over another one twice is the same as once. -/
@[simp] theorem merge_merge_self
    (base overlay : NameMap α) :
    (base.merge overlay).merge overlay = base.merge overlay := by
  refine insertAll_of_get? fun entry member => ?_
  have found : overlay.get? entry.1 = some entry.2 :=
    find?_of_mem overlay.distinct member
  simp [get?_merge, found]

/-! ## Merging as an operation -/

/-- Two lists of the same names that find the same values are the same. -/
theorem eq_of_find?
    {entries others : List (String × α)}
    (distinct : (entries.map Prod.fst).Nodup)
    (sameNames : entries.map Prod.fst = others.map Prod.fst)
    (sameFound : ∀ name, find? entries name = find? others name) :
    entries = others := by
  induction entries generalizing others with
  | nil =>
      exact (List.map_eq_nil_iff.1 sameNames.symm).symm
  | cons entry rest inductionHypothesis =>
      rcases entry with ⟨key, value⟩
      obtain ⟨⟨key, found⟩, later, rfl, rfl, sameLater⟩ :=
        List.map_eq_cons_iff.1 sameNames.symm
      rw [List.map_cons, List.nodup_cons] at distinct
      have sameValue : value = found := by
        simpa [find?] using sameFound key
      have sameRest : rest = later := by
        apply inductionHypothesis distinct.2 sameLater.symm
        intro name
        by_cases here : key = name
        · have absent := here ▸ distinct.1
          rw [find?_eq_none_iff.2 absent,
            find?_eq_none_iff.2 (sameLater ▸ absent)]
        · simpa [find?, here] using sameFound name
      rw [sameValue, sameRest]

/-- A map is determined by its names, in their order, and by their values. -/
theorem eq_of_keys_of_get?
    {left right : NameMap α}
    (sameKeys : left.keys = right.keys)
    (sameValues : ∀ name, left.get? name = right.get? name) :
    left = right :=
  ext (eq_of_find? left.distinct sameKeys sameValues)

/-- Laying maps over one another may be grouped in either way. -/
theorem merge_assoc
    (first second third : NameMap α) :
    (first.merge second).merge third = first.merge (second.merge third) := by
  apply eq_of_keys_of_get?
  · simp only [keys_merge, List.filter_append, List.filter_filter,
      List.append_assoc, List.mem_append, List.mem_filter, not_or, not_and]
    congr 2
    apply List.filter_congr
    intro name _
    by_cases inFirst : name ∈ first.keys <;> simp [inFirst]
  · intro name
    simp only [get?_merge, Option.or_assoc]

/-- An empty map changes nothing it is laid over. -/
@[simp] theorem merge_empty
    (map : NameMap α) :
    map.merge empty = map :=
  rfl

/-- Laying a map over nothing leaves that map. -/
@[simp] theorem empty_merge
    (map : NameMap α) :
    empty.merge map = map :=
  ext (entries_ofList map.distinct)

/-! ## Several maps -/

/--
A map that holds what was stored last under each name of some maps.

Its names are in the order of their first insertion.
-/
structure LastWins
    (maps : List (NameMap α))
    (merged : NameMap α) :
    Prop where
  keys : merged.keys = (maps.flatMap NameMap.keys).eraseDups
  values :
    ∀ name, merged.get? name = maps.reverse.findSome? (·.get? name)

namespace LastWins

theorem nil :
    LastWins [] (empty : NameMap α) :=
  ⟨rfl, fun _ => rfl⟩

/-- One more map is laid over the ones so far. -/
theorem append
    {maps : List (NameMap α)}
    {merged : NameMap α}
    (lastWins : LastWins maps merged)
    (overlay : NameMap α) :
    LastWins (maps ++ [overlay]) (merged.merge overlay) := by
  refine ⟨?_, fun name => ?_⟩
  · simpa using keys_merge_of_listed lastWins.keys overlay
  · rw [get?_merge, lastWins.values name]
    cases found : overlay.get? name <;> simp [found]

end LastWins

/-! ## Changing all values -/

/-- The map with every value changed, under the name that it has. -/
def mapValues
    {β : Type}
    (change : String → α → β)
    (map : NameMap α) :
    NameMap β where
  entries := map.entries.map fun entry => (entry.1, change entry.1 entry.2)
  distinct := by
    rw [List.map_map]
    exact map.distinct

/-- A changed map holds the changed values under the same names. -/
theorem get?_mapValues
    {β : Type}
    (change : String → α → β)
    (map : NameMap α)
    (name : String) :
    (map.mapValues change).get? name =
      (map.get? name).map (change name) := by
  have changed
      (entries : List (String × α)) :
      find? (entries.map fun entry => (entry.1, change entry.1 entry.2))
          name =
        (find? entries name).map (change name) := by
    induction entries with
    | nil =>
        rfl
    | cons entry rest inductionHypothesis =>
        rcases entry with ⟨key, value⟩
        by_cases same : key = name
        · subst same
          simp [find?]
        · simpa [find?, same] using inductionHypothesis
  exact changed map.entries

end GraphScript.NameMap
