/-!
# Tables

A table maps keys to values and remembers the order in which its keys first came. Giving a key
another value keeps its place, so `keys_put` says that only a new key changes the list of keys, at
its end.
-/

namespace TextureFlow

section

variable {κ α : Type} [DecidableEq κ]

/-- Entries with another value for a key: in the place of the old one, or else at the end. -/
def putEntry (key : κ) (x : α) : List (κ × α) → List (κ × α)
  | [] => [(key, x)]
  | (k, y) :: rest => if k = key then (k, x) :: rest else (k, y) :: putEntry key x rest

theorem map_fst_putEntry (key : κ) (x : α) (es : List (κ × α)) :
    (putEntry key x es).map Prod.fst =
      if key ∈ es.map Prod.fst then es.map Prod.fst else es.map Prod.fst ++ [key] := by
  induction es with
  | nil => simp [putEntry]
  | cons e rest ih =>
    obtain ⟨k, y⟩ := e
    by_cases h : k = key
    · simp [putEntry, h]
    · have h' : key ≠ k := fun e => h e.symm
      by_cases hm : key ∈ rest.map Prod.fst
      · simp only [putEntry, if_neg h, List.map_cons, ih, if_pos hm]
        rw [if_pos (List.mem_cons_of_mem k hm)]
      · simp only [putEntry, if_neg h, List.map_cons, ih, if_neg hm]
        rw [if_neg (by simp [h', hm] : ¬key ∈ k :: rest.map Prod.fst)]
        rfl

end

/-- A finite map in the order of first insertion. -/
structure Table (κ α : Type) where
  entries : List (κ × α)
  /-- Every key stands once. -/
  nodup : (entries.map Prod.fst).Nodup
deriving DecidableEq

namespace Table

variable {κ α : Type}

/-- The table without entries. -/
def empty : Table κ α :=
  ⟨[], List.nodup_nil⟩

/-- The keys in order. -/
def keys (t : Table κ α) : List κ :=
  t.entries.map Prod.fst

/-- How many keys there are. -/
def size (t : Table κ α) : Nat :=
  t.entries.length

variable [DecidableEq κ]

/-- The value of a key. -/
def find? (t : Table κ α) (key : κ) : Option α :=
  (t.entries.find? fun e => e.1 = key).map Prod.snd

/-- Whether a key has a value. -/
def contains (t : Table κ α) (key : κ) : Bool :=
  t.keys.contains key

/-- The table with another value for a key. -/
def put (t : Table κ α) (key : κ) (x : α) : Table κ α where
  entries := putEntry key x t.entries
  nodup := by
    rw [map_fst_putEntry]
    split
    · exact t.nodup
    · next h =>
      rw [List.nodup_append]
      refine ⟨t.nodup, by simp, fun a ha b hb => ?_⟩
      rw [List.mem_singleton.1 hb]
      exact fun e => h (e ▸ ha)

/-- The table of listed entries, of which a later one replaces an earlier one with the same key. -/
def ofList (es : List (κ × α)) : Table κ α :=
  es.foldl (fun t e => t.put e.1 e.2) empty

theorem keys_put (t : Table κ α) (key : κ) (x : α) :
    (t.put key x).keys = if key ∈ t.keys then t.keys else t.keys ++ [key] :=
  map_fst_putEntry key x t.entries

end Table

end TextureFlow
