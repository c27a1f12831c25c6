import FileShell.FileSystem.Basic
import Mathlib.Tactic.SplitIfs

namespace FileShell

theorem lookup_map_of_fst {f : FileName × Node → FileName × Node} (hf : ∀ e, (f e).1 = e.1)
    (es : List (FileName × Node)) (m : FileName) :
    (es.map f).lookup m = (es.lookup m).map fun node => (f (m, node)).2 := by
  induction es with
  | nil => rfl
  | cons e es ih =>
    obtain ⟨name, node⟩ := e
    have hname : f (name, node) = (name, (f (name, node)).2) := Prod.ext (hf _) rfl
    rw [List.map_cons, hname, List.lookup_cons, List.lookup_cons]
    cases h : m == name with
    | true => rw [eq_of_beq h]; rfl
    | false => exact ih

theorem lookup_filter_fst (es : List (FileName × Node)) (name m : FileName) :
    (es.filter (·.1 ≠ name)).lookup m = if m = name then none else es.lookup m := by
  induction es with
  | nil => simp
  | cons e es ih =>
    obtain ⟨k, node⟩ := e
    by_cases hk : k = name
    · subst hk
      rw [List.filter_cons_of_neg (by simp), ih, List.lookup_cons]
      split_ifs with hm
      · rfl
      · rw [beq_false_of_ne hm]
    · rw [List.filter_cons_of_pos (by simpa using hk), List.lookup_cons, List.lookup_cons, ih]
      by_cases hm : m = k
      · subst hm
        simp [hk]
      · rw [beq_false_of_ne hm]

namespace Node

@[simp] theorem at?_nil (node : Node) : node.at? [] = some node := rfl

@[simp] theorem child?_leaf (id : LeafId) (name : FileName) : (leaf id).child? name = none := rfl

@[simp] theorem at?_cons (node : Node) (name : FileName) (rest : Place) :
    node.at? (name :: rest) = (node.child? name).bind (·.at? rest) := rfl

theorem at?_append (node : Node) (p q : Place) :
    node.at? (p ++ q) = (node.at? p).bind (·.at? q) := by
  induction p generalizing node with
  | nil => rfl
  | cons name p ih =>
    rw [List.cons_append, at?_cons, at?_cons, Option.bind_assoc]
    congr 1
    funext child
    exact ih child

theorem child?_modify (change : Node → Node) (name : FileName) (rest : Place) (node : Node)
    (m : FileName) :
    (node.modify change (name :: rest)).child? m =
      if m = name then (node.child? m).map (modify change rest) else node.child? m := by
  cases node with
  | leaf id => simp [modify]
  | dir folder es =>
    simp only [modify, child?, entries]
    rw [lookup_map_of_fst (fun e => by split <;> rfl)]
    split_ifs <;> simp

theorem at?_modify_of_append (change : Node → Node) (p q : Place) (node : Node) :
    (node.modify change (p ++ q)).at? p = (node.at? p).map (modify change q) := by
  induction p generalizing node with
  | nil => simp
  | cons name p ih =>
    rw [List.cons_append, at?_cons, at?_cons, child?_modify, if_pos rfl]
    cases node.child? name with
    | none => rfl
    | some child => simpa using ih child

@[simp] theorem at?_modify_self (change : Node → Node) (p : Place) (node : Node) :
    (node.modify change p).at? p = (node.at? p).map change := by
  have h := at?_modify_of_append change p [] node
  rwa [List.append_nil] at h

theorem at?_modify_of_not_isPrefix (change : Node → Node) {p q : Place} (hpq : ¬ p <+: q)
    (hqp : ¬ q <+: p) (node : Node) : (node.modify change p).at? q = node.at? q := by
  induction p generalizing node q with
  | nil => exact absurd List.nil_prefix hpq
  | cons name p ih =>
    cases q with
    | nil => exact absurd List.nil_prefix hqp
    | cons m q =>
      rw [at?_cons, at?_cons, child?_modify]
      split_ifs with hm
      · subst hm
        rw [List.prefix_cons_inj] at hpq hqp
        cases node.child? m with
        | none => rfl
        | some child => simpa using ih hpq hqp child
      · rfl

@[simp] theorem child?_drop (name m : FileName) (node : Node) :
    (node.drop name).child? m = if m = name then none else node.child? m := by
  cases node with
  | leaf id => simp [drop]
  | dir folder es => exact lookup_filter_fst es name m

@[simp] theorem child?_put (folder : Folder) (es : List (FileName × Node)) (name m : FileName)
    (child : Node) :
    ((dir folder es).put name child).child? m =
      if m = name then some child else (dir folder es).child? m := by
  -- A new name goes behind all others, one that is there keeps its position.
  cases hold : es.lookup name with
  | none =>
    simp only [put, hold, child?, entries, Option.isSome_none, Bool.false_eq_true, if_false,
      List.lookup_append]
    split_ifs with hm
    · subst hm
      simp [hold]
    · simp [List.lookup_cons, beq_false_of_ne hm]
  | some old =>
    simp only [put, hold, child?, entries, Option.isSome_some, if_true]
    rw [lookup_map_of_fst (fun e => by split <;> simp_all)]
    split_ifs with hm
    · subst hm
      simp [hold]
    · simp

@[simp] theorem child?_withFolder (change : Folder → Folder) (node : Node) (m : FileName) :
    (node.withFolder change).child? m = node.child? m := by
  cases node <;> rfl

@[simp] theorem child?_touch (now : Instant) (node : Node) (m : FileName) :
    (node.touch now).child? m = node.child? m := child?_withFolder _ node m

mutual

/-- Every leaf number in a tree is below the fresh one. -/
theorem lt_fresh_of_at? : ∀ (node : Node) (p : Place) (id : LeafId),
    node.at? p = some (leaf id) → id < node.fresh
  | leaf i, p, id, h => by
    cases p with
    | nil =>
      obtain rfl : i = id := by simpa using h
      simp [fresh]
    | cons name rest => simp at h
  | dir folder es, p, id, h => by
    cases p with
    | nil => simp at h
    | cons name rest => exact lt_freshIn_of_lookup es name rest id h

theorem lt_freshIn_of_lookup : ∀ (es : List (FileName × Node)) (name : FileName) (rest : Place)
    (id : LeafId), (es.lookup name).bind (·.at? rest) = some (leaf id) → id < freshIn es
  | [], name, rest, id, h => by simp at h
  | (k, node) :: es, name, rest, id, h => by
    rw [freshIn]
    rw [List.lookup_cons] at h
    split at h
    · exact Nat.lt_of_lt_of_le (lt_fresh_of_at? node rest id h) (Nat.le_max_left _ _)
    · exact Nat.lt_of_lt_of_le (lt_freshIn_of_lookup es name rest id h) (Nat.le_max_right _ _)

end

end Node
end FileShell
