import Mathlib.Data.List.Infix
import Mathlib.Tactic.Common

/-!
# Paths

A location in a file system without symbolic links is the list of the names on the way to it from
the root. A path leads from one location to another: `walk` enters its components one after the
other. `cancel` does the same to a path alone, from the back: it strikes out each `..` with the
name in front of it, and counts those that are left over.
-/

namespace FilePath

abbrev Name := List UInt8

def SLASH : UInt8 := 47
def dot : Name := [46]
def dotdot : Name := [46, 46]

def components (path : List UInt8) : List Name := path.splitOn SLASH

/-- The names of the components that change nothing. -/
def Idle (c : Name) : Prop := c = [] ∨ c = dot

instance (c : Name) : Decidable (Idle c) := inferInstanceAs (Decidable (_ ∨ _))

/-- The location that one component leads to. The root is its own parent. -/
def enter (loc : List Name) (c : Name) : List Name :=
  if Idle c then loc else if c = dotdot then loc.dropLast else loc ++ [c]

def walk (loc : List Name) (cs : List Name) : List Name := cs.foldl enter loc

/-- The number of `..` that no name in front of them cancels, and the names that no `..` behind
them cancels. -/
def cancel : List Name → ℕ × List Name
  | []      => (0, [])
  | c :: cs =>
    let (climbs, names) := cancel cs
    if Idle c then (climbs, names)
    else if c = dotdot then (climbs + 1, names)
    else if climbs = 0 then (0, c :: names)
    else (climbs - 1, names)

/-- The location lies below `dir`. -/
def StrictlyInside (dir loc : List Name) : Prop := dir <+: loc ∧ dir ≠ loc

instance (dir loc : List Name) : Decidable (StrictlyInside dir loc) :=
  inferInstanceAs (Decidable (_ ∧ _))

/-- The names that are left over begin with the directories that the climbs lead out of, and go on
behind them. -/
def Confined (dir : List Name) (path : List UInt8) : Prop :=
  StrictlyInside (dir.drop (dir.length - (cancel (components path)).1))
    (cancel (components path)).2

def NAME_MAX : ℕ := 255

/-- A file can have the path: no component is too long, and the last one is a name. -/
def Nameable (path : List UInt8) : Prop :=
  (∀ c ∈ components path, c.length ≤ NAME_MAX) ∧
    ∀ c ∈ (components path).getLast?, ¬ Idle c ∧ c ≠ dotdot

instance (path : List UInt8) : Decidable (Nameable path) :=
  inferInstanceAs (Decidable (_ ∧ ∀ c ∈ (components path).getLast?, _))

/-- The contents of the regular files under their paths, the directories and links being arbitrary.
No path leads through a file. -/
structure Files where
  read     : List UInt8 → Option (List UInt8)
  nameable : ∀ path content, read path = some content → Nameable path
  leaf     : ∀ path rest content, read (path ++ SLASH :: rest) = some content → read path = none

variable {dir loc : List Name} {cs : List Name} {c : Name} {path path' : List UInt8}

/-! ### Components -/

lemma components_append (path path' : List UInt8) :
    components (path ++ SLASH :: path') = components path ++ components path' :=
  List.splitOn_append_cons_self path path'

lemma components_name (h : SLASH ∉ path) : components path = [path] := List.splitOn_eq_singleton h

lemma components_ne_nil (path : List UInt8) : components path ≠ [] := List.splitOn_ne_nil SLASH path

lemma nameable_append_iff :
    Nameable (path ++ SLASH :: path') ↔
      (∀ c ∈ components path, c.length ≤ NAME_MAX) ∧ Nameable path' := by
  have hlast := List.getLast?_eq_some_getLast (components_ne_nil path')
  simp only [Nameable, components_append, List.forall_mem_append, List.getLast?_append, hlast,
    Option.some_or, and_assoc]

lemma walk_append (loc cs cs' : List Name) : walk loc (cs ++ cs') = walk (walk loc cs) cs' :=
  List.foldl_append

/-! ### Files -/

/-- Two files under paths that do not lead through each other. -/
def Files.pair (path path' : List UInt8) (content content' : List UInt8) (hpath : Nameable path)
    (hpath' : Nameable path') (hthrough : ∀ rest, path' ≠ path ++ SLASH :: rest)
    (hthrough' : ∀ rest, path ≠ path' ++ SLASH :: rest) : Files where
  read p := if p = path then some content else if p = path' then some content' else none
  nameable := by
    intro p c h
    split_ifs at h with hp hp'
    · exact hp ▸ hpath
    · exact hp' ▸ hpath'
  leaf := by
    intro p rest c h
    have hself : ∀ q : List UInt8, q ≠ q ++ SLASH :: rest := by simp
    split_ifs at h with hp hp'
    · rw [if_neg (fun hq => hself p (hq.trans hp.symm)),
        if_neg (fun hq => hthrough' rest (hp.symm.trans (by rw [hq])))]
    · rw [if_neg (fun hq => hthrough rest (hp'.symm.trans (by rw [hq]))),
        if_neg (fun hq => hself p (hq.trans hp'.symm))]

/-! ### Cancelling -/

/-- Where a path leads is decided by what is left of it. -/
lemma walk_eq (loc cs : List Name) :
    walk loc cs = loc.take (loc.length - (cancel cs).1) ++ (cancel cs).2 := by
  induction cs generalizing loc with
  | nil => simp [walk, cancel]
  | cons c cs ih =>
    have hwalk : walk loc (c :: cs) = walk (enter loc c) cs := rfl
    rw [hwalk, ih, enter, cancel]
    obtain ⟨climbs, names⟩ := cancel cs
    by_cases hidle : Idle c
    · simp only [if_pos hidle]
    · simp only [if_neg hidle]
      by_cases hup : c = dotdot
      · simp only [if_pos hup]
        rw [List.length_dropLast, List.dropLast_eq_take, List.take_take]
        congr 2
        omega
      · simp only [if_neg hup, List.length_append, List.length_singleton]
        by_cases hzero : climbs = 0
        · have hall : (loc ++ [c]).take (loc.length + 1) = loc ++ [c] :=
            List.take_of_length_le (by simp)
          rw [if_pos hzero, hzero, Nat.sub_zero, Nat.sub_zero, hall, List.take_length,
            List.append_assoc, List.singleton_append]
        · rw [if_neg hzero, List.take_append_of_le_length (by omega)]
          congr 2
          omega

/-- A path leads from a directory to a location inside of it exactly if what is left of the path
climbs out of no directory, or comes back to the ones that it climbs out of. -/
lemma strictlyInside_walk_iff :
    StrictlyInside dir (walk dir (components path)) ↔ Confined dir path := by
  unfold StrictlyInside Confined StrictlyInside
  rw [walk_eq]
  generalize cancel (components path) = rest
  have hsplit : dir.take (dir.length - rest.1) ++ dir.drop (dir.length - rest.1) = dir :=
    List.take_append_drop _ _
  generalize dir.take (dir.length - rest.1) = outer at hsplit ⊢
  generalize dir.drop (dir.length - rest.1) = inner at hsplit ⊢
  rw [← hsplit, List.prefix_append_right_inj, Ne, List.append_cancel_left_eq]

/-- A path of one component that is a name leads to the entry of that name. -/
lemma walk_name (h : SLASH ∉ path) (hidle : ¬ Idle path) (hup : path ≠ dotdot) :
    walk loc (components path) = loc ++ [path] := by
  rw [components_name h]
  simp [walk, enter, hidle, hup]

/-- A path of one component does not lead into a sibling. -/
lemma not_prefix_walk {base : List Name} {name name' : Name} (hne : name ≠ name')
    (h : SLASH ∉ path) : ¬ base ++ [name'] <+: walk (base ++ [name]) (components path) := by
  rw [components_name h]
  intro hprefix
  have hlast : ∀ rest, base ++ [name'] <+: base ++ name :: rest → False := by
    intro rest hrest
    rw [List.prefix_append_right_inj, List.cons_prefix_cons] at hrest
    exact hne hrest.1.symm
  simp only [walk, List.foldl_cons, List.foldl_nil, enter] at hprefix
  split_ifs at hprefix with hidle hup
  · exact hlast [] hprefix
  · have hlen := hprefix.length_le
    simp only [List.length_append, List.length_singleton, List.length_dropLast] at hlen
    omega
  · rw [List.append_assoc] at hprefix
    exact hlast _ hprefix

end FilePath
