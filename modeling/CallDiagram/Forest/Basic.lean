/-!
# Forests

A forest is a list of trees, written so that one induction covers it: a first node, the forest
below it, and the forest of the trees after it.

* `Forest.walk` — all nodes in document order, `Forest.tops` — the nodes of the first level;
* `Forest.ofList` — the forest of a list whose entries have depths: each node is put in front of
  the forest of what follows and takes the leading trees that lie deeper below itself;
* `walk_ofList` — no node is lost, doubled or moved.
-/

namespace CallDiagram

/-- A list of trees: the first node, the trees below it, the trees after it. -/
inductive Forest (α : Type) where
  /-- No tree. -/
  | nil
  /-- A tree and the trees after it. -/
  | node (top : α) (below after : Forest α)
  deriving Inhabited

namespace Forest

variable {α β : Type}

/-- All nodes, each in front of the nodes below it. -/
def walk : Forest α → List α
  | .nil => []
  | .node a below after => a :: (below.walk ++ after.walk)

/-- The nodes of the first level. -/
def tops : Forest α → List α
  | .nil => []
  | .node a _ after => a :: after.tops

/-- The trees, each as its top node and what lies below it. -/
def trees : Forest α → List (α × Forest α)
  | .nil => []
  | .node a below after => (a, below) :: after.trees

/-- The first node of the first level. -/
def first? : Forest α → Option α
  | .nil => none
  | .node a _ _ => some a

/-- The number of levels. -/
def levels : Forest α → Nat
  | .nil => 0
  | .node _ below after => max (below.levels + 1) after.levels

/-- The forest with a function applied to every node. -/
def map (f : α → β) : Forest α → Forest β
  | .nil => .nil
  | .node a below after => .node (f a) (below.map f) (after.map f)

/-- Whether a condition holds of every node. -/
def all (p : α → Bool) : Forest α → Bool
  | .nil => true
  | .node a below after => p a && below.all p && after.all p

/-- The leading trees whose top nodes meet a condition, and the trees from the first one on that
does not. -/
def span (p : α → Bool) : Forest α → Forest α × Forest α
  | .nil => (.nil, .nil)
  | .node a below after =>
      if p a then
        let (inner, outer) := after.span p
        (.node a below inner, outer)
      else (.nil, .node a below after)

/-- A node in front of a forest: the leading trees that lie deeper come below it. -/
def plant (depth : α → Int) (a : α) (rest : Forest α) : Forest α :=
  let (inner, outer) := rest.span fun b => depth a < depth b
  .node a inner outer

/-- The forest of a list of nodes with depths. -/
def ofList (depth : α → Int) (nodes : List α) : Forest α := nodes.foldr (plant depth) .nil

/-! ## Nothing is lost -/

theorem walk_span (p : α → Bool) (f : Forest α) :
    (f.span p).1.walk ++ (f.span p).2.walk = f.walk := by
  induction f with
  | nil => rfl
  | node a below after _ ih =>
    by_cases h : p a = true
    · simp [span, h, walk, ← ih]
    · simp [span, h, walk]

theorem walk_plant (depth : α → Int) (a : α) (rest : Forest α) :
    (plant depth a rest).walk = a :: rest.walk := by
  simp [plant, walk, walk_span]

theorem walk_ofList (depth : α → Int) (nodes : List α) : (ofList depth nodes).walk = nodes := by
  induction nodes with
  | nil => rfl
  | cons a rest ih => simpa [ofList, walk_plant] using ih

theorem walk_map (f : α → β) (t : Forest α) : (t.map f).walk = t.walk.map f := by
  induction t with
  | nil => rfl
  | node a below after ihb iha => simp [map, walk, ihb, iha]

end Forest

end CallDiagram
