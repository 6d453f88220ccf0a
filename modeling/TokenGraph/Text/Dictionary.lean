import TokenGraph.Text.Basic
/-!
# Dictionaries

A dictionary maps texts to values. Its entries are in the order of their keys, which is the order
of their UTF-8 bytes as well, and no key occurs twice.
-/
namespace TokenGraph

/-- Puts an entry where its key belongs, in place of an entry of the same key. -/
def insertEntry {α : Type} (key : Text) (value : α) : List (Text × α) → List (Text × α)
  | [] => [(key, value)]
  | (k, v) :: rest =>
    if key < k then (key, value) :: (k, v) :: rest
    else if k < key then (k, v) :: insertEntry key value rest
    else (key, value) :: rest

def Ascending {α : Type} (entries : List (Text × α)) : Prop :=
  entries.Pairwise fun a b => a.1 < b.1

theorem mem_insertEntry {α : Type} {key : Text} {value : α} {entries : List (Text × α)}
    {e : Text × α} (h : e ∈ insertEntry key value entries) : e = (key, value) ∨ e ∈ entries := by
  induction entries with
  | nil => simpa [insertEntry] using h
  | cons head rest ih =>
    obtain ⟨k, v⟩ := head
    simp only [insertEntry] at h
    split at h
    · simpa using h
    · split at h
      · rcases List.mem_cons.1 h with h | h
        · exact .inr (h ▸ List.mem_cons_self)
        · exact (ih h).imp_right (List.mem_cons_of_mem _)
      · rcases List.mem_cons.1 h with h | h
        · exact .inl h
        · exact .inr (List.mem_cons_of_mem _ h)

theorem Ascending.insertEntry {α : Type} {entries : List (Text × α)} (h : Ascending entries)
    (key : Text) (value : α) : Ascending (insertEntry key value entries) := by
  induction entries with
  | nil => simp [TokenGraph.insertEntry, Ascending]
  | cons head rest ih =>
    obtain ⟨k, v⟩ := head
    have hrest := List.pairwise_cons.1 h
    simp only [TokenGraph.insertEntry]
    split
    · next hlt =>
      refine List.pairwise_cons.2 ⟨fun e he => ?_, h⟩
      rcases List.mem_cons.1 he with rfl | he
      · exact hlt
      · exact List.lt_trans hlt (hrest.1 e he)
    · split
      · next _ hlt =>
        refine List.pairwise_cons.2 ⟨fun e he => ?_, ih hrest.2⟩
        rcases mem_insertEntry he with rfl | he
        · exact hlt
        · exact hrest.1 e he
      · next hge hle =>
        have hkey : key = k := List.le_antisymm (List.not_lt.1 hle) (List.not_lt.1 hge)
        exact List.pairwise_cons.2 ⟨hkey ▸ hrest.1, hrest.2⟩

/-- An entry is replaced where it stands. -/
theorem insertEntry_of_ascending {α : Type} {key : Text} {old : α} (value : α)
    {front back : List (Text × α)} (h : Ascending (front ++ (key, old) :: back)) :
    insertEntry key value (front ++ (key, old) :: back) = front ++ (key, value) :: back := by
  induction front with
  | nil =>
    rw [List.nil_append, insertEntry, if_neg (List.lt_irrefl key), if_neg (List.lt_irrefl key)]
    rfl
  | cons e front ih =>
    obtain ⟨hbefore, hrest⟩ := List.pairwise_cons.mp h
    have hlt : e.1 < key := hbefore (key, old) (by simp)
    have hge : ¬ key < e.1 := List.lt_asymm hlt
    rw [List.cons_append, insertEntry, if_neg hge, if_pos hlt, ih hrest, List.cons_append]

def lookupEntry {α : Type} (key : Text) (entries : List (Text × α)) : Option α :=
  (entries.find? fun e => e.1 = key).map (·.2)

theorem lookupEntry_insertEntry_self {α : Type} (key : Text) (value : α)
    (entries : List (Text × α)) :
    lookupEntry key (insertEntry key value entries) = some value := by
  induction entries with
  | nil => simp [insertEntry, lookupEntry]
  | cons head rest ih =>
    obtain ⟨k, v⟩ := head
    simp only [insertEntry]
    split
    · simp [lookupEntry]
    · split
      · next _ hlt =>
        have hk : k ≠ key := fun h => List.lt_irrefl key (h ▸ hlt)
        simpa [lookupEntry, hk] using ih
      · simp [lookupEntry]

theorem lookupEntry_insertEntry_of_ne {α : Type} {key other : Text} (h : other ≠ key) (value : α)
    (entries : List (Text × α)) :
    lookupEntry other (insertEntry key value entries) = lookupEntry other entries := by
  have hkey : key ≠ other := h.symm
  induction entries with
  | nil => simp [insertEntry, lookupEntry, hkey]
  | cons head rest ih =>
    obtain ⟨k, v⟩ := head
    simp only [insertEntry]
    split
    · simp [lookupEntry, hkey]
    · split
      · by_cases hk : k = other
        · simp [lookupEntry, hk]
        · simpa [lookupEntry, hk] using ih
      · next hge hle =>
        have hk : key = k := List.le_antisymm (List.not_lt.1 hle) (List.not_lt.1 hge)
        have hko : k ≠ other := hk ▸ hkey
        simp [lookupEntry, hkey, hko]

structure Dictionary (α : Type) where
  entries : List (Text × α)
  ascending : Ascending entries

namespace Dictionary

variable {α : Type}

def empty : Dictionary α := ⟨[], .nil⟩

/-- The dictionary with `value` under `key`, whatever was there before. -/
def insert (d : Dictionary α) (key : Text) (value : α) : Dictionary α :=
  ⟨insertEntry key value d.entries, d.ascending.insertEntry key value⟩

def erase (d : Dictionary α) (key : Text) : Dictionary α :=
  ⟨d.entries.filter fun e => e.1 ≠ key, d.ascending.filter _⟩

def get? (d : Dictionary α) (key : Text) : Option α := lookupEntry key d.entries

def contains (d : Dictionary α) (key : Text) : Bool := (d.get? key).isSome

def keys (d : Dictionary α) : List Text := d.entries.map (·.1)

def size (d : Dictionary α) : Nat := d.entries.length

/-- The dictionary of some entries, of which the last of each key counts. -/
def ofList (entries : List (Text × α)) : Dictionary α :=
  entries.foldl (fun d e => d.insert e.1 e.2) empty

theorem get?_empty (key : Text) : (empty : Dictionary α).get? key = none := rfl

theorem get?_insert (d : Dictionary α) (key other : Text) (value : α) :
    (d.insert key value).get? other = if other = key then some value else d.get? other := by
  split
  · next h => rw [h]; exact lookupEntry_insertEntry_self key value d.entries
  · next h => exact lookupEntry_insertEntry_of_ne h value d.entries

theorem entries_insert {d : Dictionary α} {key : Text} {old : α}
    (h : d.get? key = some old) : ∃ front back, d.entries = front ++ (key, old) :: back ∧
      ∀ value, (d.insert key value).entries = front ++ (key, value) :: back := by
  obtain ⟨e, hfind, rfl⟩ := Option.map_eq_some_iff.mp h
  have hkey : e.1 = key := by simpa using List.find?_some hfind
  subst hkey
  obtain ⟨front, back, hsplit⟩ := List.append_of_mem (List.mem_of_find?_eq_some hfind)
  refine ⟨front, back, hsplit, fun value => ?_⟩
  have hascending := d.ascending
  rw [hsplit] at hascending
  rw [insert]
  dsimp only
  rw [hsplit]
  exact insertEntry_of_ascending value hascending

theorem get?_erase (d : Dictionary α) (key other : Text) :
    (d.erase key).get? other = if other = key then none else d.get? other := by
  simp only [get?, erase, lookupEntry, List.find?_filter]
  split
  · next h =>
    subst h
    simp
  · next h =>
    have hpred : (fun e : Text × α => decide (decide (e.1 ≠ key) = true ∧ decide (e.1 = other) = true)) =
        fun e => decide (e.1 = other) := by
      funext e
      by_cases he : e.1 = other
      · simp [he, h]
      · simp [he]
    rw [hpred]

theorem keys_ascend (d : Dictionary α) : d.keys.Pairwise (· < ·) :=
  List.pairwise_map.2 d.ascending

end Dictionary

end TokenGraph
