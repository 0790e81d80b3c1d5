/-!
# Log settings

The settings of the log are a level for everything, levels for single components, and the choice
between records as JSON and as plain text.  The levels are kept as the texts they were given; the
filter reads them.

The components form a finite map.  `Components` keeps its entries sorted by name, so two maps with
the same entries are equal; of two entries for one name the later one stays.
-/

namespace RollupBoundary.Logging

/-! ## Components -/

/-- Entries with one more, in its place by name; an entry of the same name is replaced. -/
def insertEntry (name level : String) : List (String × String) → List (String × String)
  | [] => [(name, level)]
  | e :: es =>
    if name < e.1 then (name, level) :: e :: es
    else if name = e.1 then (name, level) :: es
    else e :: insertEntry name level es

theorem eq_or_mem_of_mem_insertEntry {name level : String} {es : List (String × String)}
    {e : String × String} (h : e ∈ insertEntry name level es) : e = (name, level) ∨ e ∈ es := by
  induction es with
  | nil => simpa [insertEntry] using h
  | cons d es ih =>
    rw [insertEntry] at h
    split at h
    · simpa using h
    · split at h
      · rcases List.mem_cons.1 h with h | h
        · exact .inl h
        · exact .inr (List.mem_cons_of_mem _ h)
      · rcases List.mem_cons.1 h with rfl | h
        · exact .inr List.mem_cons_self
        · exact (ih h).imp_right (List.mem_cons_of_mem _)

theorem pairwise_insertEntry {es : List (String × String)} (name level : String)
    (h : es.Pairwise fun a b => a.1 < b.1) :
    (insertEntry name level es).Pairwise fun a b => a.1 < b.1 := by
  induction es with
  | nil => simp [insertEntry]
  | cons e es ih =>
    rw [List.pairwise_cons] at h
    rw [insertEntry]
    split
    · next hlt =>
      refine List.pairwise_cons.2 ⟨fun b hb => ?_, List.pairwise_cons.2 h⟩
      rcases List.mem_cons.1 hb with rfl | hb
      · exact hlt
      · exact String.lt_trans hlt (h.1 b hb)
    · next hnlt =>
      split
      · next heq =>
        exact List.pairwise_cons.2 ⟨fun b hb => by simpa [heq] using h.1 b hb, h.2⟩
      · next hne =>
        refine List.pairwise_cons.2 ⟨fun b hb => ?_, ih h.2⟩
        rcases eq_or_mem_of_mem_insertEntry hb with rfl | hb
        · exact Std.lt_of_le_of_ne (String.not_lt.1 hnlt) (Ne.symm hne)
        · exact h.1 b hb

/-- A finite map from component names to level texts, sorted by name. -/
structure Components where
  entries : List (String × String)
  sorted : entries.Pairwise fun a b => a.1 < b.1
deriving DecidableEq

namespace Components

/-- No components. -/
def empty : Components :=
  ⟨[], .nil⟩

/-- The map with one more entry, in place of an earlier one of that name. -/
def insert (c : Components) (name level : String) : Components :=
  ⟨insertEntry name level c.entries, pairwise_insertEntry name level c.sorted⟩

/-- The map of a list of entries, later ones over earlier ones. -/
def ofList (es : List (String × String)) : Components :=
  es.foldl (fun c e => c.insert e.1 e.2) empty

end Components

/-! ## Settings -/

/-- How the log is configured. -/
structure Settings where
  /-- The level for everything. -/
  level : String
  /-- Levels for single components. -/
  components : Components
  /-- Whether records are written as JSON. -/
  json : Bool
deriving DecidableEq

/-- The settings that hold unless others are given. -/
def Settings.standard : Settings :=
  ⟨"info", .empty, false⟩

/-- The name of a component as it stands in the targets of its records. -/
def targetName (component : String) : String :=
  String.ofList (component.toList.map fun c => if c = '-' then '_' else c)

/-- The settings as directives: the level, then each component in the order of the names. -/
def Settings.directives (s : Settings) : String :=
  s.level ++ String.join (s.components.entries.map fun e => "," ++ targetName e.1 ++ "=" ++ e.2)

end RollupBoundary.Logging
