import CallDiagram.Forest.Basic

/-!
# The shape of a forest

A function on nodes keeps the shape of a forest.  A forest is determined by its shape and its nodes
in document order, so a forest that has the shape of `Forest.ofList` is one.

* `map_ofList` — hanging by depths does not look at anything but the depths;
* `ofList_congr` — and at these only for which of two nodes lies less deep;
* `append`, `ofList_append` — two forests side by side, and when two lists of nodes hang so;
* `eq_of_map_eq_map` — shape and walk determine a forest;
* `eq_ofList_walk` — a forest that agrees with some `ofList`, up to what a function keeps of each
  node, is the `ofList` of its own walk.
-/

namespace CallDiagram.Forest

variable {α β γ : Type}

theorem forall_mem_walk_node {P : α → Prop} {a : α} {below after : Forest α} :
    (∀ b ∈ (Forest.node a below after).walk, P b) ↔
      P a ∧ (∀ b ∈ below.walk, P b) ∧ ∀ b ∈ after.walk, P b := by
  simp [walk, or_imp, forall_and]

theorem map_map (g : β → γ) (h : α → β) (f : Forest α) : (f.map h).map g = f.map (g ∘ h) := by
  induction f with
  | nil => rfl
  | node a below after ihb iha => simp [map, ihb, iha]

theorem map_eq_self {h : α → α} {f : Forest α} (hf : ∀ a ∈ f.walk, h a = a) : f.map h = f := by
  induction f with
  | nil => rfl
  | node a below after ihb iha =>
    obtain ⟨ha, hbelow, hafter⟩ := forall_mem_walk_node.1 hf
    rw [map, ha, ihb hbelow, iha hafter]

theorem tops_map (h : α → β) (f : Forest α) : (f.map h).tops = f.tops.map h := by
  induction f with
  | nil => rfl
  | node a below after _ iha => simp [map, tops, iha]

theorem mem_walk_of_first? {f : Forest α} {a : α} (h : f.first? = some a) : a ∈ f.walk := by
  cases f with
  | nil => simp [first?] at h
  | node b below after => exact Option.some.inj h ▸ List.mem_cons_self

theorem first?_map (h : α → β) (f : Forest α) : (f.map h).first? = f.first?.map h := by
  cases f <;> rfl

theorem mem_walk_of_mem_tops {f : Forest α} {a : α} (h : a ∈ f.tops) : a ∈ f.walk := by
  induction f with
  | nil => simp [tops] at h
  | node b below after _ iha =>
    rcases List.mem_cons.1 h with rfl | h
    · exact List.mem_cons_self
    · simp [walk, iha h]

theorem trees_map (h : α → β) (f : Forest α) :
    (f.map h).trees = f.trees.map fun t => (h t.1, t.2.map h) := by
  induction f with
  | nil => rfl
  | node a below after _ iha => simp [map, trees, iha]

theorem map_congr {g h : α → β} {f : Forest α} (hf : ∀ a ∈ f.walk, g a = h a) :
    f.map g = f.map h := by
  induction f with
  | nil => rfl
  | node a below after ihb iha =>
    rw [map, map, hf a (by simp [walk]), ihb fun b hb => hf b (by simp [walk, hb]),
      iha fun b hb => hf b (by simp [walk, hb])]

theorem map_span (h : α → β) (p : β → Bool) (f : Forest α) :
    (f.map h).span p = ((f.span (p ∘ h)).1.map h, (f.span (p ∘ h)).2.map h) := by
  induction f with
  | nil => rfl
  | node a below after _ ih =>
    by_cases hp : p (h a) = true
    · simp [map, span, hp, ih]
    · simp [map, span, hp]

/-- Hanging by depths looks at nothing but the depths. -/
theorem map_ofList (h : α → β) (depth : β → Int) (nodes : List α) :
    (ofList (depth ∘ h) nodes).map h = ofList depth (nodes.map h) := by
  induction nodes with
  | nil => rfl
  | cons a rest ih =>
    show (plant (depth ∘ h) a (ofList (depth ∘ h) rest)).map h
      = plant depth (h a) (ofList depth (rest.map h))
    rw [← ih]
    simp only [plant, map, map_span]
    rfl

theorem span_congr {p q : α → Bool} {f : Forest α} (h : ∀ a ∈ f.tops, p a = q a) :
    f.span p = f.span q := by
  induction f with
  | nil => rfl
  | node a below after _ ih =>
    rw [span, span, h a List.mem_cons_self, ih fun b hb => h b (List.mem_cons_of_mem a hb)]

/-- Depths that order the nodes alike hang them alike. -/
theorem ofList_congr {depth depth' : α → Int} {nodes : List α}
    (h : ∀ a ∈ nodes, ∀ b ∈ nodes, depth a < depth b ↔ depth' a < depth' b) :
    ofList depth nodes = ofList depth' nodes := by
  induction nodes with
  | nil => rfl
  | cons a rest ih =>
    have hrest := ih fun b hb c hc => h b (List.mem_cons_of_mem a hb) c (List.mem_cons_of_mem a hc)
    show plant depth a (ofList depth rest) = plant depth' a (ofList depth' rest)
    have hspan : ((ofList depth rest).span fun b => depth a < depth b)
        = (ofList depth rest).span fun b => depth' a < depth' b := by
      refine span_congr ?_
      intro b hb
      have hmem := mem_walk_of_mem_tops hb
      rw [walk_ofList] at hmem
      simp only [h a List.mem_cons_self b (List.mem_cons_of_mem a hmem)]
    rw [plant, plant, ← hrest, hspan]

/-! ## Side by side -/

/-- The trees of one forest and behind them those of another. -/
def append : Forest α → Forest α → Forest α
  | .nil, g => g
  | .node a below after, g => .node a below (after.append g)

@[simp] theorem nil_append (g : Forest α) : Forest.nil.append g = g := rfl

@[simp] theorem node_append (a : α) (below after g : Forest α) :
    (Forest.node a below after).append g = .node a below (after.append g) := rfl

theorem trees_append (f g : Forest α) : (f.append g).trees = f.trees ++ g.trees := by
  induction f with
  | nil => rfl
  | node a below after _ iha => simp [trees, iha]

theorem tops_append (f g : Forest α) : (f.append g).tops = f.tops ++ g.tops := by
  induction f with
  | nil => rfl
  | node a below after _ iha => simp [tops, iha]

theorem map_append (h : α → β) (f g : Forest α) :
    (f.append g).map h = (f.map h).append (g.map h) := by
  induction f with
  | nil => rfl
  | node a below after _ iha => simp [map, iha]

theorem span_append {p : α → Bool} {g : Forest α} (hg : ∀ b ∈ g.tops, p b = false) (f : Forest α) :
    (f.append g).span p = ((f.span p).1, (f.span p).2.append g) := by
  induction f with
  | nil =>
    cases g with
    | nil => rfl
    | node b below after =>
      have hb := hg b List.mem_cons_self
      simp [span, hb]
  | node a below after _ iha =>
    by_cases ha : p a = true
    · simp [span, ha, iha]
    · simp [span, ha]

/-- Nodes none of which lies less deep than a node of the first level behind them hang side by side
with the rest. -/
theorem ofList_append {depth : α → Int} {front rest : List α}
    (h : ∀ a ∈ front, ∀ b ∈ (ofList depth rest).tops, depth b ≤ depth a) :
    ofList depth (front ++ rest) = (ofList depth front).append (ofList depth rest) := by
  induction front with
  | nil => rfl
  | cons a front ih =>
    have hfront := ih fun c hc => h c (List.mem_cons_of_mem a hc)
    show plant depth a (ofList depth (front ++ rest))
      = (plant depth a (ofList depth front)).append (ofList depth rest)
    have hshallow : ∀ b ∈ (ofList depth rest).tops, decide (depth a < depth b) = false := by
      intro b hb
      have hle := h a List.mem_cons_self b hb
      simpa using hle
    rw [hfront, plant, span_append hshallow]
    rfl

/-! ## Shape and walk -/

/-- Two forests of one shape with the same nodes in document order are the same. -/
theorem eq_of_map_eq_map {h : α → β} {f g : Forest α} (hmap : f.map h = g.map h)
    (hwalk : f.walk = g.walk) : f = g := by
  induction f generalizing g with
  | nil =>
    cases g with
    | nil => rfl
    | node b below' after' => simp [map] at hmap
  | node a below after ihb iha =>
    cases g with
    | nil => simp [map] at hmap
    | node b below' after' =>
      simp only [map, Forest.node.injEq] at hmap
      obtain ⟨-, hbelow, hafter⟩ := hmap
      have hlength : below.walk.length = below'.walk.length := by
        have := congrArg (fun t => t.walk.length) hbelow
        simpa [walk_map] using this
      obtain ⟨hab, hrest⟩ := List.cons.inj hwalk
      obtain ⟨hb, ha⟩ := List.append_inj hrest hlength
      rw [hab, ihb hbelow hb, iha hafter ha]

/-- A forest that agrees with one hung by depths, up to what a function keeps of each node, is hung
by depths itself. -/
theorem eq_ofList_walk (h : α → β) (depth : β → Int) {f : Forest α} {nodes : List β}
    (hf : f.map h = ofList depth nodes) : f = ofList (depth ∘ h) f.walk := by
  apply eq_of_map_eq_map (h := h)
  · rw [map_ofList, ← walk_map, hf, walk_ofList]
  · rw [walk_ofList]

end CallDiagram.Forest
