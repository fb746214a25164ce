import Mathlib.Data.List.Lookmap
import Mathlib.Data.List.Nodup

/-!
# Finite maps in the order of insertion

A map is the list of its entries, with distinct keys, in the order in which the keys came in.
`update` and `erase` change the entry of a key wherever it is; since the key occurs once, an
operation that stops at the first match does the same.
-/

/-- A finite map whose entries have an order. -/
structure OrderedMap (K V : Type*) where
  entries : List (K × V)
  nodup : (entries.map Prod.fst).Nodup

namespace OrderedMap

variable {K V : Type*}

def empty : OrderedMap K V := ⟨[], List.nodup_nil⟩

def keys (m : OrderedMap K V) : List K := m.entries.map Prod.fst

/-- Keep the entries whose values satisfy `p`. -/
def filter (m : OrderedMap K V) (p : V → Bool) : OrderedMap K V where
  entries := m.entries.filter fun e => p e.2
  nodup := m.nodup.sublist (List.filter_sublist.map _)

variable [DecidableEq K]

/-- Append an entry with a new key; a key that is in the map keeps its entry. -/
def append (m : OrderedMap K V) (k : K) (v : V) : OrderedMap K V :=
  if h : k ∈ m.keys then m
  else
    { entries := m.entries ++ [(k, v)]
      nodup := by
        rw [List.map_append, List.map_singleton, ← List.concat_eq_append, List.nodup_concat]
        exact ⟨h, m.nodup⟩ }

lemma keys_map_update (m : OrderedMap K V) (k : K) (v : V) :
    (m.entries.map fun e => if e.1 = k then (k, v) else e).map Prod.fst = m.keys := by
  rw [List.map_map]
  apply List.map_congr_left
  intro e _
  rw [Function.comp_apply]
  split_ifs with he
  · exact he.symm
  · rfl

/-- Change the value of a key, if it is in the map. -/
def update (m : OrderedMap K V) (k : K) (v : V) : OrderedMap K V where
  entries := m.entries.map fun e => if e.1 = k then (k, v) else e
  nodup := by
    rw [keys_map_update]
    exact m.nodup

def erase (m : OrderedMap K V) (k : K) : OrderedMap K V where
  entries := m.entries.filter fun e => e.1 ≠ k
  nodup := m.nodup.sublist (List.filter_sublist.map _)

/-! ### Operations that stop at the first match -/

variable {m : OrderedMap K V} {k : K} {v : V}

lemma entries_append (h : k ∉ m.keys) : (m.append k v).entries = m.entries ++ [(k, v)] := by
  rw [append, dif_neg h]

/-- Of distinct keys at most one is changed. -/
lemma map_eq_lookmap {es : List (K × V)} (hes : (es.map Prod.fst).Nodup) (k : K) (v : V) :
    (es.map fun e => if e.1 = k then (k, v) else e)
      = es.lookmap fun e => if e.1 = k then some (k, v) else none := by
  induction es with
  | nil => rfl
  | cons e es ih =>
    obtain ⟨hnotMem, hes'⟩ := List.nodup_cons.mp hes
    rw [List.map_cons, List.lookmap_cons]
    by_cases he : e.1 = k
    · have hrest : (es.map fun e => if e.1 = k then (k, v) else e) = es.map id := by
        apply List.map_congr_left
        rintro e' he'
        refine if_neg fun hk => hnotMem ?_
        rw [he, ← hk]
        exact List.mem_map_of_mem he'
      simp only [if_pos he, hrest, List.map_id]
    · simp only [if_neg he, ih hes']

lemma filter_eq_eraseP {es : List (K × V)} (hes : (es.map Prod.fst).Nodup) (k : K) :
    (es.filter fun e => e.1 ≠ k) = es.eraseP fun e => e.1 = k := by
  induction es with
  | nil => rfl
  | cons e es ih =>
    obtain ⟨hnotMem, hes'⟩ := List.nodup_cons.mp hes
    by_cases he : e.1 = k
    · have hrest : (es.filter fun e => e.1 ≠ k) = es := by
        rw [List.filter_eq_self]
        intro e' he'
        refine decide_eq_true fun hk => hnotMem ?_
        rw [he, ← hk]
        exact List.mem_map_of_mem he'
      simp only [List.filter_cons, List.eraseP_cons, he, hrest, ne_eq, not_true, decide_false,
        decide_true, cond_true, if_neg Bool.false_ne_true]
    · simp only [List.filter_cons, List.eraseP_cons, he, ih hes', ne_eq, not_false_eq_true,
        decide_true, decide_false, cond_false, if_true]

lemma entries_update (m : OrderedMap K V) (k : K) (v : V) :
    (m.update k v).entries = m.entries.lookmap fun e => if e.1 = k then some (k, v) else none :=
  map_eq_lookmap m.nodup k v

lemma entries_erase (m : OrderedMap K V) (k : K) :
    (m.erase k).entries = m.entries.eraseP fun e => e.1 = k :=
  filter_eq_eraseP m.nodup k

end OrderedMap
