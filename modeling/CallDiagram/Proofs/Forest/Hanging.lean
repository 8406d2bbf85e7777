import CallDiagram.Proofs.Forest.Ancestry

/-!
# Which node hangs from which

`Forest.ofList` hangs a list of nodes by their depths, working from the last node to the first.
This file says what comes out, read from the first node to the last:

* `parents_ofList` — every node hangs from the nearest node before it that lies less deep, which is
  the first of the nodes above it;
* `parents_ofList_eq_openRun` — the same parents are found in one pass with a stack of open nodes,
  which never looks back over the list;
* `getElem?_parents_ofList`, `nearest_eq_some_iff` — the law at a position: of all earlier nodes
  that lie less deep, the last one is the parent;
* `tops_eq_filterMap`, `tops_eq_hangingFrom` — the nodes of the first level, and the nodes listed
  below a node, are those that hang there, in document order.
-/

namespace CallDiagram.Forest

variable {α : Type}

/-! ## Parents and subtrees -/

/-- Every node with the node it hangs from, in document order, below a given node. -/
def parentsBelow (parent : Option α) : Forest α → List (α × Option α)
  | .nil => []
  | .node a below after =>
      (a, parent) :: (parentsBelow (some a) below ++ parentsBelow parent after)

/-- Every node with the node it hangs from, in document order. -/
def parents (f : Forest α) : List (α × Option α) := parentsBelow none f

/-- Every node with the forest below it, in document order. -/
def subtrees : Forest α → List (α × Forest α)
  | .nil => []
  | .node a below after => (a, below) :: (below.subtrees ++ after.subtrees)

theorem parents_node (a : α) (below after : Forest α) :
    (Forest.node a below after).parents
      = (a, none) :: (below.parentsBelow (some a) ++ after.parents) := rfl

theorem map_fst_parentsBelow (p : Option α) (f : Forest α) :
    (f.parentsBelow p).map Prod.fst = f.walk := by
  induction f generalizing p with
  | nil => rfl
  | node a below after ihb iha => simp [parentsBelow, walk, ihb, iha]

theorem map_fst_subtrees (f : Forest α) : f.subtrees.map Prod.fst = f.walk := by
  induction f with
  | nil => rfl
  | node a below after ihb iha => simp [subtrees, walk, ihb, iha]

theorem map_fst_trees (f : Forest α) : f.trees.map Prod.fst = f.tops := by
  induction f with
  | nil => rfl
  | node a below after _ iha => rw [trees, List.map_cons, iha, tops]

/-- The walk of a forest is the walk of its trees, one after the other. -/
theorem flatMap_trees (f : Forest α) :
    (f.trees.flatMap fun t => (Forest.node t.1 t.2 .nil).walk) = f.walk := by
  induction f with
  | nil => rfl
  | node a below after _ iha => simpa [trees, walk] using iha

/-- What hangs below a node hangs there in place of hanging nowhere. -/
theorem parentsBelow_eq_map (p : Option α) (f : Forest α) :
    f.parentsBelow p = f.parents.map fun e => (e.1, e.2.or p) := by
  induction f generalizing p with
  | nil => rfl
  | node a below after ihb iha =>
    rw [parents_node, parentsBelow, ihb (some a), iha p]
    simp [Function.comp_def]

/-- The parent of a node is the nearest of the nodes above it. -/
theorem map_head?_ancestriesBelow (above : List α) (f : Forest α) :
    (f.ancestriesBelow above).map (fun e => (e.1, e.2.head?)) = f.parentsBelow above.head? := by
  induction f generalizing above with
  | nil => rfl
  | node a below after ihb iha => simp [ancestriesBelow, parentsBelow, ihb, iha]

theorem parents_eq_map (f : Forest α) :
    f.parents = f.ancestries.map fun e => (e.1, e.2.head?) :=
  (map_head?_ancestriesBelow [] f).symm

/-- The nodes of the first level are those that hang nowhere. -/
theorem tops_eq_filterMap (f : Forest α) :
    f.tops = f.parents.filterMap fun e => if e.2.isNone then some e.1 else none := by
  rw [tops_eq_filterMap_ancestries, parents_eq_map, List.filterMap_map]
  congr 1
  funext e
  obtain ⟨a, _ | _⟩ := e <;> rfl

/-! ## Listing and hanging agree -/

section Keys

theorem snd_mem_of_mem_parentsBelow {p : Option α} {f : Forest α} {e : α × Option α}
    (h : e ∈ f.parentsBelow p) : e.2 = p ∨ ∃ b ∈ f.walk, e.2 = some b := by
  induction f generalizing p with
  | nil => simp [parentsBelow] at h
  | node a below after ihb iha =>
    rw [parentsBelow, List.mem_cons, List.mem_append] at h
    rcases h with rfl | h | h
    · exact Or.inl rfl
    · rcases ihb h with h | ⟨b, hb, h⟩
      · exact Or.inr ⟨a, by simp [walk], h⟩
      · exact Or.inr ⟨b, by simp [walk, hb], h⟩
    · rcases iha h with h | ⟨b, hb, h⟩
      · exact Or.inl h
      · exact Or.inr ⟨b, by simp [walk, hb], h⟩

theorem fst_mem_walk_of_mem_subtrees {f : Forest α} {t : α × Forest α} (h : t ∈ f.subtrees) :
    t.1 ∈ f.walk :=
  map_fst_subtrees f ▸ List.mem_map_of_mem h

variable {κ : Type} [DecidableEq κ] (key : α → κ)

/-- The nodes that hang from the node with a given key. -/
def hangingFrom (k : κ) (entries : List (α × Option α)) : List α :=
  (entries.filter fun e => e.2.map key == some k).map Prod.fst

theorem hangingFrom_append (k : κ) (xs ys : List (α × Option α)) :
    hangingFrom key k (xs ++ ys) = hangingFrom key k xs ++ hangingFrom key k ys := by
  simp [hangingFrom]

/-- Nothing hangs from a node that is neither above a forest nor in it. -/
theorem hangingFrom_eq_nil {k : κ} {p : Option α} {f : Forest α}
    (hp : p.map key ≠ some k) (hf : k ∉ f.walk.map key) :
    hangingFrom key k (f.parentsBelow p) = [] := by
  rw [hangingFrom, List.map_eq_nil_iff, List.filter_eq_nil_iff]
  intro e he hk
  have hk' : e.2.map key = some k := by simpa using hk
  rcases snd_mem_of_mem_parentsBelow he with h | ⟨b, hb, h⟩
  · exact hp (h ▸ hk')
  · rw [h] at hk'
    exact hf (List.mem_map.2 ⟨b, hb, by simpa using hk'⟩)

theorem hangingFrom_parents_eq_nil {k : κ} {f : Forest α} (hf : k ∉ f.walk.map key) :
    hangingFrom key k f.parents = [] :=
  hangingFrom_eq_nil key (by simp) hf

/-- What hangs from one node does not depend on another node above. -/
theorem hangingFrom_parentsBelow_of_ne {k : κ} {p : Option α} (hp : p.map key ≠ some k)
    (f : Forest α) : hangingFrom key k (f.parentsBelow p) = hangingFrom key k f.parents := by
  rw [parentsBelow_eq_map, hangingFrom, hangingFrom, List.filter_map, List.map_map]
  have hfilter : ∀ e : α × Option α,
      ((e.2.or p).map key == some k) = (e.2.map key == some k) := by
    rintro ⟨a, _ | b⟩
    · simpa using hp
    · rfl
  simp [Function.comp_def, hfilter]

/-- From the node above a forest hangs its first level. -/
theorem hangingFrom_parentsBelow_self {a : α} {f : Forest α} (hf : key a ∉ f.walk.map key) :
    hangingFrom key (key a) (f.parentsBelow (some a)) = f.tops := by
  induction f with
  | nil => rfl
  | node b below after _ iha =>
    simp only [walk, List.map_cons, List.map_append, List.mem_cons, List.mem_append,
      not_or] at hf
    obtain ⟨hb, hbelow, hafter⟩ := hf
    have hnil : hangingFrom key (key a) (below.parentsBelow (some b)) = [] :=
      hangingFrom_eq_nil key (by simpa using fun h => hb h.symm) hbelow
    rw [parentsBelow, ← List.singleton_append, hangingFrom_append, hangingFrom_append, hnil,
      iha hafter]
    simp [hangingFrom, tops]

/-- If keys tell the nodes apart, the nodes listed below a node are exactly those that hang from
it, in document order. -/
theorem tops_eq_hangingFrom {f : Forest α} (hkeys : (f.walk.map key).Nodup) {t : α × Forest α}
    (ht : t ∈ f.subtrees) : t.2.tops = hangingFrom key (key t.1) f.parents := by
  induction f with
  | nil => simp [subtrees] at ht
  | node a below after ihb iha =>
    simp only [walk, List.map_cons, List.map_append, List.nodup_cons, List.mem_append,
      not_or] at hkeys
    obtain ⟨⟨hab, haa⟩, hrest⟩ := hkeys
    obtain ⟨hb, ha, hdisjoint⟩ := List.nodup_append.1 hrest
    have hsplit : ∀ k, hangingFrom key k (Forest.node a below after).parents
        = hangingFrom key k (below.parentsBelow (some a))
          ++ hangingFrom key k after.parents := by
      intro k
      rw [parents_node, ← List.singleton_append, hangingFrom_append, hangingFrom_append]
      simp [hangingFrom]
    rw [subtrees, List.mem_cons, List.mem_append] at ht
    rcases ht with rfl | ht | ht
    · rw [hsplit, hangingFrom_parentsBelow_self key hab, hangingFrom_parents_eq_nil key haa,
        List.append_nil]
    · have hmem : key t.1 ∈ below.walk.map key :=
        List.mem_map_of_mem (fst_mem_walk_of_mem_subtrees ht)
      have hne : (some a).map key ≠ some (key t.1) := by
        simpa using fun h : key a = key t.1 => hab (h ▸ hmem)
      rw [hsplit, hangingFrom_parentsBelow_of_ne key hne,
        hangingFrom_parents_eq_nil key (fun h => hdisjoint _ hmem _ h rfl), List.append_nil]
      exact ihb hb ht
    · have hmem : key t.1 ∈ after.walk.map key :=
        List.mem_map_of_mem (fst_mem_walk_of_mem_subtrees ht)
      have hne : (some a).map key ≠ some (key t.1) := by
        simpa using fun h : key a = key t.1 => haa (h ▸ hmem)
      rw [hsplit, hangingFrom_eq_nil key hne (fun h => hdisjoint _ h _ hmem rfl),
        List.nil_append]
      exact iha ha ht

end Keys

/-! ## The nearest node before that lies less deep -/

variable (depth : α → Int)

/-- The nearest of the nodes before, nearest first, that lies less deep. -/
def nearest (before : List α) (a : α) : Option α := before.find? fun b => depth b < depth a

/-- Every node of a list with the nearest node before it that lies less deep; `before` holds the
nodes in front of the list, nearest first. -/
def hung (before : List α) : List α → List (α × Option α)
  | [] => []
  | a :: rest => (a, nearest depth before a) :: hung (a :: before) rest

/-- Of the nodes that a node lies below, the nearest is the nearest of all that lie less deep. -/
theorem head?_chain (a : α) (before : List α) :
    (chain depth a before).head? = nearest depth before a := by
  induction before with
  | nil => rfl
  | cons b before ih =>
    rw [nearest] at ih ⊢
    by_cases h : depth b < depth a
    · simp [chain, h]
    · rw [chain, if_neg h, ih]
      simp [h]

theorem map_head?_chained (before nodes : List α) :
    (chained depth before nodes).map (fun e => (e.1, e.2.head?)) = hung depth before nodes := by
  induction nodes generalizing before with
  | nil => rfl
  | cons a rest ih => rw [chained, hung, List.map_cons, ih, head?_chain]

/-- Every node of a list hangs from the nearest node before it that lies less deep. -/
theorem parents_ofList (nodes : List α) : (ofList depth nodes).parents = hung depth [] nodes := by
  rw [parents_eq_map, ancestries_ofList, map_head?_chained]

/-! ## One pass with a stack -/

/-- One pass over a list with the stack of open nodes: those that do not lie less deep than the
next node are closed, and it hangs from the one then on top. -/
def openRun (opened : List α) : List α → List (α × Option α)
  | [] => []
  | a :: rest =>
      let above := opened.dropWhile fun b => depth a ≤ depth b
      (a, above.head?) :: openRun (a :: above) rest

/-- The stack holds the last of the nodes read so far and those that it lies below. -/
theorem openRun_spine (before nodes : List α) :
    openRun depth (spine depth before) nodes = hung depth before nodes := by
  induction nodes generalizing before with
  | nil => rfl
  | cons a rest ih =>
    have hrest := ih (a :: before)
    rw [spine] at hrest
    rw [openRun, hung, dropWhile_spine, head?_chain, hrest]

/-- The stack of open nodes finds the parents of the forest. -/
theorem parents_ofList_eq_openRun (nodes : List α) :
    (ofList depth nodes).parents = openRun depth [] nodes :=
  (parents_ofList depth nodes).trans (openRun_spine depth [] nodes).symm

/-! ## The law at a position -/

theorem getElem?_hung (before nodes : List α) (i : Nat) :
    (hung depth before nodes)[i]?
      = nodes[i]?.map fun a => (a, nearest depth ((nodes.take i).reverse ++ before) a) := by
  induction nodes generalizing before i with
  | nil => rfl
  | cons a rest ih =>
    cases i with
    | zero => simp [hung]
    | succ i => simp [hung, ih]

theorem getElem?_parents_ofList (nodes : List α) (i : Nat) :
    (ofList depth nodes).parents[i]?
      = nodes[i]?.map fun a => (a, nearest depth (nodes.take i).reverse a) := by
  rw [parents_ofList, getElem?_hung]
  simp

theorem nearest_take_succ (nodes : List α) (i : Nat) (a : α) :
    nearest depth (nodes.take (i + 1)).reverse a
      = (nodes[i]?.filter fun c => depth c < depth a).or
          (nearest depth (nodes.take i).reverse a) := by
  simp only [nearest, List.take_add_one, List.reverse_append, List.find?_append]
  cases nodes[i]? with
  | none => rfl
  | some c => by_cases hc : depth c < depth a <;> simp [hc, Option.filter]

theorem nearest_eq_none_iff {nodes : List α} {i : Nat} {a : α} :
    nearest depth (nodes.take i).reverse a = none ↔
      ∀ j b, j < i → nodes[j]? = some b → ¬ depth b < depth a := by
  induction i with
  | zero => simp [nearest]
  | succ i ih =>
    rw [nearest_take_succ, Option.or_eq_none_iff, ih]
    constructor
    · rintro ⟨hlast, hrest⟩ j b hj hb
      rcases Nat.lt_succ_iff_lt_or_eq.1 hj with hj | rfl
      · exact hrest j b hj hb
      · simpa [hb] using hlast
    · intro h
      refine ⟨?_, fun j b hj hb => h j b (by omega) hb⟩
      cases hi : nodes[i]? with
      | none => rfl
      | some c => simpa using h i c (by omega) hi

/-- The nearest node before a position that lies less deep is the last of all those before it that
do. -/
theorem nearest_eq_some_iff {nodes : List α} {i : Nat} {a b : α} :
    nearest depth (nodes.take i).reverse a = some b ↔
      ∃ j, j < i ∧ nodes[j]? = some b ∧ depth b < depth a ∧
        ∀ k c, k < i → nodes[k]? = some c → depth c < depth a → k ≤ j := by
  induction i with
  | zero => simp [nearest]
  | succ i ih =>
    rw [nearest_take_succ, Option.or_eq_some_iff, ih]
    constructor
    · rintro (hlast | ⟨hlast, j, hj, hb, hlt, hmax⟩)
      · obtain ⟨hb, hlt⟩ := Option.filter_eq_some_iff.1 hlast
        exact ⟨i, by omega, hb, by simpa using hlt, fun k c hk _ _ => by omega⟩
      · refine ⟨j, by omega, hb, hlt, fun k c hk hc hlt' => ?_⟩
        rcases Nat.lt_succ_iff_lt_or_eq.1 hk with hk | rfl
        · exact hmax k c hk hc hlt'
        · have hle : depth a ≤ depth c := by simpa [hc] using hlast
          omega
    · rintro ⟨j, hj, hb, hlt, hmax⟩
      rcases Nat.lt_succ_iff_lt_or_eq.1 hj with hj | rfl
      · refine Or.inr ⟨?_, j, hj, hb, hlt, fun k c hk => hmax k c (by omega)⟩
        cases hi : nodes[i]? with
        | none => rfl
        | some c =>
          have hnot : ¬ depth c < depth a := fun h => by
            have := hmax i c (by omega) hi h
            omega
          simp [Option.filter, hnot]
      · exact Or.inl (Option.filter_eq_some_iff.2 ⟨hb, by simpa using hlt⟩)

end CallDiagram.Forest
