import CallDiagram.Forest.Basic

/-!
# The nodes above a node

A node lies below all the nodes that following parents from it meets.  In a forest that is hung by
depths they can be read off the nodes before it:

* `ancestries` — every node with the nodes above it, nearest first;
* `pairwise_tops_ofList` — the nodes that nothing lies above lie ever less deep;
* `chain`, `ancestries_ofList` — they are found by looking back for ever less depth;
* `spine`, `dropWhile_spine` — a stack of open nodes holds them, once those that do not lie less
  deep are closed;
* `chained_append` — what comes later changes nothing of them.
-/

namespace CallDiagram.Forest

variable {α β : Type}

/-! ## Ancestries -/

/-- Every node with the nodes above it, nearest first, in document order, below some nodes. -/
def ancestriesBelow (above : List α) : Forest α → List (α × List α)
  | .nil => []
  | .node a below after =>
      (a, above) :: (ancestriesBelow (a :: above) below ++ ancestriesBelow above after)

/-- Every node with the nodes above it, nearest first, in document order. -/
def ancestries (f : Forest α) : List (α × List α) := ancestriesBelow [] f

theorem ancestries_node (a : α) (below after : Forest α) :
    (Forest.node a below after).ancestries
      = (a, []) :: (below.ancestriesBelow [a] ++ after.ancestries) := rfl

theorem map_fst_ancestriesBelow (above : List α) (f : Forest α) :
    (f.ancestriesBelow above).map Prod.fst = f.walk := by
  induction f generalizing above with
  | nil => rfl
  | node a below after ihb iha => simp [ancestriesBelow, walk, ihb, iha]

theorem map_fst_ancestries (f : Forest α) : f.ancestries.map Prod.fst = f.walk :=
  map_fst_ancestriesBelow [] f

/-- What lies above a forest lies above all that lies above its nodes. -/
theorem ancestriesBelow_eq_map (above : List α) (f : Forest α) :
    f.ancestriesBelow above = f.ancestries.map fun e => (e.1, e.2 ++ above) := by
  induction f generalizing above with
  | nil => rfl
  | node a below after ihb iha =>
    rw [ancestries_node, ancestriesBelow, ihb (a :: above), ihb [a], iha above]
    simp [Function.comp_def]

theorem ancestriesBelow_map (h : α → β) (above : List α) (f : Forest α) :
    (f.map h).ancestriesBelow (above.map h)
      = (f.ancestriesBelow above).map fun e => (h e.1, e.2.map h) := by
  induction f generalizing above with
  | nil => rfl
  | node a below after ihb iha =>
    rw [map, ancestriesBelow, ancestriesBelow, ← List.map_cons, ihb, iha]
    simp

theorem ancestries_map (h : α → β) (f : Forest α) :
    (f.map h).ancestries = f.ancestries.map fun e => (h e.1, e.2.map h) :=
  ancestriesBelow_map h [] f

theorem snd_ne_nil_of_mem_ancestriesBelow {b : α} {above : List α} {f : Forest α}
    {e : α × List α} (h : e ∈ f.ancestriesBelow (b :: above)) : e.2 ≠ [] := by
  rw [ancestriesBelow_eq_map] at h
  obtain ⟨e', -, rfl⟩ := List.mem_map.1 h
  simp

/-- The nodes of the first level are those that nothing lies above. -/
theorem tops_eq_filterMap_ancestries (f : Forest α) :
    f.tops = f.ancestries.filterMap fun e => if e.2.isEmpty then some e.1 else none := by
  induction f with
  | nil => rfl
  | node a below after _ iha =>
    have hbelow : (below.ancestriesBelow [a]).filterMap
        (fun e => if e.2.isEmpty then some e.1 else none) = [] := by
      rw [List.filterMap_eq_nil_iff]
      intro e he
      simp [snd_ne_nil_of_mem_ancestriesBelow he]
    rw [tops, iha, ancestries_node, List.filterMap_cons, List.filterMap_append, hbelow]
    rfl

/-- The first answer to a node of the first level is the first answer to a node that nothing lies
above. -/
theorem findSome?_tops (g : α → Option β) (f : Forest α) :
    f.tops.findSome? g
      = f.ancestries.findSome? fun e => if e.2.isEmpty then g e.1 else none := by
  rw [tops_eq_filterMap_ancestries, ← List.head?_filterMap, List.filterMap_filterMap,
    List.head?_filterMap]
  congr 1
  funext e
  obtain ⟨a, _ | _⟩ := e <;> rfl

/-- The last of the nodes above a node stands at the first level, as a node does that nothing lies
above. -/
theorem getLastD_mem_tops {f : Forest α} {e : α × List α} (he : e ∈ f.ancestries) :
    e.2.getLastD e.1 ∈ f.tops := by
  induction f with
  | nil => simp [ancestries, ancestriesBelow] at he
  | node a below after _ iha =>
    rw [ancestries_node, List.mem_cons, List.mem_append, ancestriesBelow_eq_map] at he
    rcases he with rfl | he | he
    · simp [tops]
    · obtain ⟨e', -, rfl⟩ := List.mem_map.1 he
      simp [tops]
    · exact List.mem_cons_of_mem a (iha he)

theorem tops_span (p : α → Bool) (f : Forest α) :
    (f.span p).1.tops = f.tops.takeWhile p ∧ (f.span p).2.tops = f.tops.dropWhile p := by
  induction f with
  | nil => exact ⟨rfl, rfl⟩
  | node a below after _ ih =>
    by_cases h : p a = true
    · simp [span, h, tops, ih]
    · simp [span, h, tops]

theorem ancestries_span (p : α → Bool) (f : Forest α) :
    (f.span p).1.ancestries ++ (f.span p).2.ancestries = f.ancestries := by
  induction f with
  | nil => rfl
  | node a below after _ ih =>
    by_cases h : p a = true
    · simp [span, h, ancestries_node, ← ih]
    · simp [span, h, ancestries, ancestriesBelow]

/-! ## The first level -/

variable (depth : α → Int)

/-- Nodes that lie ever less deep: once one is not deeper than a bound, none behind it is. -/
theorem le_of_mem_dropWhile {bound : Int} {l : List α}
    (hl : l.Pairwise fun a b => depth b ≤ depth a) {b : α}
    (hb : b ∈ l.dropWhile fun a => bound < depth a) : depth b ≤ bound := by
  induction l with
  | nil => simp at hb
  | cons a rest ih =>
    rw [List.pairwise_cons] at hl
    by_cases ha : bound < depth a
    · exact ih hl.2 (by simpa [ha] using hb)
    · rcases List.mem_cons.1 (by simpa [ha] using hb : b ∈ a :: rest) with rfl | hb
      · omega
      · have := hl.1 b hb
        omega

theorem ofList_cons (a : α) (rest : List α) :
    ofList depth (a :: rest) = plant depth a (ofList depth rest) := rfl

theorem tops_plant (a : α) (rest : Forest α) :
    (plant depth a rest).tops = a :: rest.tops.dropWhile fun b => depth a < depth b := by
  simp only [plant, tops, (tops_span _ rest).2]

/-- The nodes of the first level lie ever less deep. -/
theorem pairwise_tops_ofList (nodes : List α) :
    (ofList depth nodes).tops.Pairwise fun a b => depth b ≤ depth a := by
  induction nodes with
  | nil => exact List.Pairwise.nil
  | cons a rest ih =>
    rw [ofList_cons, tops_plant, List.pairwise_cons]
    exact ⟨fun b hb => le_of_mem_dropWhile depth ih hb, ih.sublist (List.dropWhile_sublist _)⟩

/-- No node of the first level lies deeper than the first node. -/
theorem le_of_mem_tops_ofList {a b : α} {rest : List α} (hb : b ∈ (ofList depth (a :: rest)).tops) :
    depth b ≤ depth a := by
  have hpairwise := pairwise_tops_ofList depth (a :: rest)
  rw [ofList_cons, tops_plant] at hb hpairwise
  rcases List.mem_cons.1 hb with rfl | hb
  · omega
  · exact List.rel_of_pairwise_cons hpairwise hb

/-! ## Looking back for ever less depth -/

/-- The nodes that a node lies below, of some nodes before it, nearest first: the nearest that lies
less deep, and all that this one lies below. -/
def chain (a : α) : List α → List α
  | [] => []
  | b :: before => if depth b < depth a then b :: chain b before else chain a before

/-- Every node of a list with the nodes that it lies below; `before` holds the nodes in front of the
list, nearest first. -/
def chained (before : List α) : List α → List (α × List α)
  | [] => []
  | a :: rest => (a, chain depth a before) :: chained (a :: before) rest

theorem chain_append (a : α) (before more : List α) :
    chain depth a (before ++ more)
      = chain depth a before ++ chain depth ((chain depth a before).getLastD a) more := by
  induction before generalizing a with
  | nil => rfl
  | cons b before ih =>
    by_cases h : depth b < depth a
    · simp only [List.cons_append, chain, if_pos h, ih b, List.getLastD_cons]
    · simp only [List.cons_append, chain, if_neg h, ih a]

theorem chained_append_before (before more nodes : List α) :
    chained depth (before ++ more) nodes
      = (chained depth before nodes).map fun e =>
          (e.1, e.2 ++ chain depth (e.2.getLastD e.1) more) := by
  induction nodes generalizing before with
  | nil => rfl
  | cons a rest ih =>
    rw [chained, chained, List.map_cons, ← ih (a :: before), List.cons_append, chain_append]

/-- What comes later changes nothing of the chains of the nodes in front. -/
theorem chained_append (before front rest : List α) :
    chained depth before (front ++ rest)
      = chained depth before front ++ chained depth (front.reverse ++ before) rest := by
  induction front generalizing before with
  | nil => rfl
  | cons a front ih => simp [chained, ih]

theorem map_fst_chained (before nodes : List α) :
    (chained depth before nodes).map Prod.fst = nodes := by
  induction nodes generalizing before with
  | nil => rfl
  | cons a rest ih => simp [chained, ih]

/-- Planting a node puts it above the nodes whose uppermost node lies deeper. -/
theorem ancestries_plant {a : α} {rest : Forest α}
    (hrest : rest.tops.Pairwise fun a b => depth b ≤ depth a) :
    (plant depth a rest).ancestries
      = (a, []) :: rest.ancestries.map fun e =>
          (e.1, e.2 ++ chain depth (e.2.getLastD e.1) [a]) := by
  simp only [plant, ancestries_node]
  rw [ancestriesBelow_eq_map, ← ancestries_span (fun b => depth a < depth b) rest, List.map_append]
  have hinner : ∀ e ∈ (rest.span fun b => depth a < depth b).1.ancestries,
      (e.1, e.2 ++ [a]) = (e.1, e.2 ++ chain depth (e.2.getLastD e.1) [a]) := by
    intro e he
    have htop := getLastD_mem_tops he
    rw [(tops_span _ rest).1] at htop
    have hdeep : depth a < depth (e.2.getLastD e.1) := by
      simpa using List.all_eq_true.1 List.all_takeWhile _ htop
    simp only [chain, if_pos hdeep]
  have houter : ∀ e ∈ (rest.span fun b => depth a < depth b).2.ancestries,
      e = (e.1, e.2 ++ chain depth (e.2.getLastD e.1) [a]) := by
    intro e he
    have htop := getLastD_mem_tops he
    rw [(tops_span _ rest).2] at htop
    have hshallow : ¬ depth a < depth (e.2.getLastD e.1) :=
      Int.not_lt.2 (le_of_mem_dropWhile depth hrest htop)
    simp only [chain, if_neg hshallow, List.append_nil]
  rw [List.map_congr_left hinner, ← List.map_congr_left houter, List.map_id']

/-- In a forest hung by depths a node lies below its chain among the nodes before it. -/
theorem ancestries_ofList (nodes : List α) :
    (ofList depth nodes).ancestries = chained depth [] nodes := by
  induction nodes with
  | nil => rfl
  | cons a rest ih =>
    rw [ofList_cons, ancestries_plant depth (pairwise_tops_ofList depth rest), ih,
      ← chained_append_before depth [] [a] rest]
    rfl

/-! ## The stack of open nodes -/

/-- The stack of open nodes behind some nodes, nearest first: the last of them and its chain. -/
def spine : List α → List α
  | [] => []
  | a :: before => a :: chain depth a before

theorem dropWhile_chain {a b : α} (h : depth a ≤ depth b) (before : List α) :
    (chain depth b before).dropWhile (fun c => depth a ≤ depth c) = chain depth a before := by
  induction before generalizing b with
  | nil => rfl
  | cons c before ih =>
    by_cases hcb : depth c < depth b
    · by_cases hca : depth c < depth a
      · have hstop : ¬ depth a ≤ depth c := by omega
        simp [chain, hcb, hca, hstop]
      · have hclose : depth a ≤ depth c := by omega
        simp [chain, hcb, hca, hclose, ih hclose]
    · have hca : ¬ depth c < depth a := by omega
      simp [chain, hcb, hca, ih h]

/-- The open nodes that are left when those that do not lie less deep are closed are the chain of
the next node. -/
theorem dropWhile_spine (a : α) (before : List α) :
    (spine depth before).dropWhile (fun b => depth a ≤ depth b) = chain depth a before := by
  cases before with
  | nil => rfl
  | cons b before =>
    by_cases h : depth b < depth a
    · have hstop : ¬ depth a ≤ depth b := by omega
      simp [spine, chain, h, hstop]
    · have hclose : depth a ≤ depth b := by omega
      simp [spine, chain, h, hclose, dropWhile_chain depth hclose]

end CallDiagram.Forest
