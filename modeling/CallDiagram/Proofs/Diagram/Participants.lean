import CallDiagram.Diagram.Participants
import Mathlib.Data.List.Basic
import Mathlib.Data.List.Dedup
import Mathlib.Data.List.Induction

/-!
# The call that stands for a component

A component is known under the alias of its first call, which is the one that is declared.

* `firstsBy` — the items of a list that are the first ones with their keys, `mem_firstsBy`,
  `firstsBy_concat`, `filter_firstsBy`, `firstsBy_congr`;
* `aliasFor?_add` — one more call matters only to an identifier that is new;
* `aliasFor?_ofCalls` — the alias of an identifier is that of the first call that has it;
* `exists_aliasOf`, `aliasOf_first` — the calls that stand for the others;
* `groupsOf` — the groups of some calls;
* `groups_ofCalls` — the boxes that are collected call by call: they are those of the groups, and
  hold the first calls;
* `length_groups_ofCalls` — there are as many boxes as groups;
* `boxed_ofCalls`, `exists_call_of_mem_groups` — every call is declared in the box of its group, and
  every box is that of the group of a call;
* `declared_ofCalls` — the calls that are declared are the first ones.
-/

namespace CallDiagram

/-! ## First items -/

section Firsts

variable {α κ : Type} [DecidableEq κ]

/-- The items that are the first ones with their keys, in their order. -/
def firstsBy (key : α → κ) : List α → List α
  | [] => []
  | a :: rest => a :: (firstsBy key rest).filter fun b => key b ≠ key a

/-- A first item is the one that a search for its key finds. -/
theorem mem_firstsBy {key : α → κ} {items : List α} {a : α} :
    a ∈ firstsBy key items ↔ (items.find? fun b => key b = key a) = some a := by
  induction items with
  | nil => simp [firstsBy]
  | cons b rest ih =>
    rw [firstsBy, List.mem_cons, List.mem_filter, ih]
    by_cases h : key b = key a
    · simp [h, eq_comm]
    · have hne : a ≠ b := fun heq => h (by rw [heq])
      simp [h, hne, Ne.symm h]

theorem firstsBy_sublist (key : α → κ) (items : List α) : (firstsBy key items).Sublist items := by
  induction items with
  | nil => exact List.Sublist.refl _
  | cons a rest ih => exact (List.filter_sublist.trans ih).cons_cons a

theorem mem_of_mem_firstsBy {key : α → κ} {items : List α} {a : α} (h : a ∈ firstsBy key items) :
    a ∈ items := (firstsBy_sublist key items).mem h

theorem firstsBy_eq_nil_iff {key : α → κ} {items : List α} :
    firstsBy key items = [] ↔ items = [] := by
  cases items <;> simp [firstsBy]

theorem mem_firstsBy_id {items : List κ} {a : κ} : a ∈ firstsBy id items ↔ a ∈ items := by
  induction items with
  | nil => rfl
  | cons b rest ih =>
    rw [firstsBy, List.mem_cons, List.mem_cons, List.mem_filter, ih]
    by_cases h : a = b <;> simp [h]

/-- No key has two first items. -/
theorem nodup_map_firstsBy (key : α → κ) (items : List α) :
    ((firstsBy key items).map key).Nodup := by
  induction items with
  | nil => exact List.nodup_nil
  | cons a rest ih =>
    rw [firstsBy, List.map_cons, List.nodup_cons]
    refine ⟨fun hmem => ?_, ih.sublist (List.filter_sublist.map key)⟩
    obtain ⟨b, hb, heq⟩ := List.mem_map.1 hmem
    exact absurd heq (by simpa using (List.mem_filter.1 hb).2)

/-- One more item is a first one if its key is new. -/
theorem firstsBy_concat (key : α → κ) (items : List α) (a : α) :
    firstsBy key (items ++ [a])
      = firstsBy key items ++ if key a ∈ items.map key then [] else [a] := by
  induction items with
  | nil => simp [firstsBy]
  | cons b rest ih =>
    rw [List.cons_append, firstsBy, ih, firstsBy, List.filter_append, List.cons_append,
      List.map_cons]
    by_cases hab : key a = key b
    · by_cases hmem : key a ∈ rest.map key <;> simp [hab]
    · have hcons : key a ∈ key b :: rest.map key ↔ key a ∈ rest.map key := by simp [hab]
      simp only [hcons]
      split <;> simp [hab]

/-- A condition on keys may be checked before or after the first items are taken. -/
theorem filter_firstsBy {key : α → κ} {p : α → Bool} {items : List α}
    (h : ∀ a ∈ items, ∀ b ∈ items, key a = key b → p a = p b) :
    (firstsBy key items).filter p = firstsBy key (items.filter p) := by
  induction items with
  | nil => rfl
  | cons a rest ih =>
    have hrest := ih fun b hb c hc =>
      h b (List.mem_cons_of_mem _ hb) c (List.mem_cons_of_mem _ hc)
    rw [firstsBy, List.filter_cons, List.filter_cons]
    by_cases hp : p a = true
    · rw [if_pos hp, if_pos hp, firstsBy, ← hrest, List.filter_comm]
    · rw [if_neg hp, if_neg hp, ← hrest, List.filter_filter]
      -- what has the key of the item fails the condition with it
      refine List.filter_congr fun b hb => ?_
      have hsame := h b (List.mem_cons_of_mem _ (mem_of_mem_firstsBy hb)) a List.mem_cons_self
      by_cases hkey : key b = key a
      · simp [hsame hkey, hp]
      · simp [hkey]

/-- Two keys that tell the same items apart have the same first items. -/
theorem firstsBy_congr {κ' : Type} [DecidableEq κ'] {key : α → κ} {key' : α → κ'} {items : List α}
    (h : ∀ a ∈ items, ∀ b ∈ items, key a = key b ↔ key' a = key' b) :
    firstsBy key items = firstsBy key' items := by
  induction items with
  | nil => rfl
  | cons a rest ih =>
    rw [firstsBy, firstsBy, ih fun b hb c hc =>
      h b (List.mem_cons_of_mem _ hb) c (List.mem_cons_of_mem _ hc)]
    refine congrArg (a :: ·) (List.filter_congr fun b hb => ?_)
    have hsame := h b (List.mem_cons_of_mem _ (mem_of_mem_firstsBy hb)) a List.mem_cons_self
    rw [decide_eq_decide]
    exact not_congr hsame

end Firsts

/-! ## Groups of calls -/

/-- The groups of some calls, in the order of their first calls. -/
def groupsOf (calls : List Call) : List (Option Text) := firstsBy id (calls.map Call.group)

theorem nodup_groupsOf (calls : List Call) : (groupsOf calls).Nodup := by
  simpa [groupsOf] using nodup_map_firstsBy id (calls.map Call.group)

theorem mem_groupsOf {calls : List Call} {group : Option Text} :
    group ∈ groupsOf calls ↔ ∃ c ∈ calls, c.group = group := by
  rw [groupsOf, mem_firstsBy_id, List.mem_map]

/-- One more call asks for its group behind the others, unless they ask for it. -/
theorem groupsOf_concat (calls : List Call) (c : Call) :
    groupsOf (calls ++ [c])
      = groupsOf calls ++ if c.group ∈ groupsOf calls then [] else [c.group] := by
  have hmem : c.group ∈ groupsOf calls ↔ c.group ∈ calls.map Call.group := mem_firstsBy_id
  rw [groupsOf, List.map_append, List.map_singleton, firstsBy_concat, List.map_id, ← groupsOf, id]
  by_cases hknown : c.group ∈ calls.map Call.group
  · rw [if_pos hknown, if_pos (hmem.2 hknown)]
  · rw [if_neg hknown, if_neg (hmem.not.2 hknown)]

namespace Participants

theorem aliasFor?_add (p : Participants) (c : Call) (identifier : Text) :
    (p.add c).aliasFor? identifier
      = (p.aliasFor? identifier).or
          (if c.identifier = identifier then some c.aliasName else none) := by
  unfold add
  split
  · rename_i known hknown
    show p.aliasFor? identifier = _
    by_cases h : c.identifier = identifier
    · rw [← h, hknown, Option.some_or]
    · rw [if_neg h, Option.or_none]
  · show List.lookup identifier (p.aliases ++ [(c.identifier, c.aliasName)]) = _
    rw [List.lookup_append]
    by_cases h : c.identifier = identifier
    · simp [aliasFor?, h]
    · have hne : (identifier == c.identifier) = false := by simpa using Ne.symm h
      simp [aliasFor?, List.lookup_cons, h, hne]

theorem aliasFor?_foldl_add (p : Participants) (calls : List Call) (identifier : Text) :
    (calls.foldl add p).aliasFor? identifier
      = (p.aliasFor? identifier).or
          ((calls.find? fun c => c.identifier = identifier).map Call.aliasName) := by
  induction calls generalizing p with
  | nil => simp
  | cons c rest ih =>
    rw [List.foldl_cons, ih, aliasFor?_add, Option.or_assoc]
    by_cases h : c.identifier = identifier
    · simp [h]
    · simp [h]

/-- The alias of an identifier is that of the first call that has it. -/
theorem aliasFor?_ofCalls (calls : List Call) (identifier : Text) :
    (ofCalls calls).aliasFor? identifier
      = (calls.find? fun c => c.identifier = identifier).map Call.aliasName := by
  rw [ofCalls, aliasFor?_foldl_add]
  rfl

/-- A call among others is known under the alias of a call of the same component. -/
theorem exists_aliasOf {calls : List Call} {c : Call} (hc : c ∈ calls) :
    ∃ d ∈ calls, d.identifier = c.identifier ∧ (ofCalls calls).aliasOf c = d.aliasName := by
  have hsome : (calls.find? fun d => d.identifier = c.identifier).isSome :=
    List.find?_isSome.2 ⟨c, hc, by simp⟩
  obtain ⟨d, hd⟩ := Option.isSome_iff_exists.1 hsome
  refine ⟨d, List.mem_of_find?_eq_some hd, by simpa using List.find?_some hd, ?_⟩
  rw [aliasOf, aliasFor?_ofCalls, hd, Option.map_some, Option.getD_some]

/-- The first call is known under its own alias. -/
theorem aliasOf_first (c : Call) (rest : List Call) :
    (ofCalls (c :: rest)).aliasOf c = c.aliasName := by
  rw [aliasOf, aliasFor?_ofCalls, List.find?_cons_of_pos (by simp), Option.map_some,
    Option.getD_some]

/-! ## Boxes -/

/-- A group is opened behind the others, unless it is open, and takes what is put into it. -/
theorem enrol_map {groups : List (Option Text)} {inside : Option Text → List Call}
    {group : Option Text} (hnodup : groups.Nodup) (hnew : group ∉ groups → inside group = [])
    (calls : List Call) :
    enrol group calls (groups.map fun g => (g, inside g))
      = (groups ++ if group ∈ groups then [] else [group]).map
          fun g => (g, inside g ++ if g = group then calls else []) := by
  induction groups with
  | nil => simp [enrol, hnew]
  | cons g rest ih =>
    obtain ⟨hfresh, hnodup⟩ := List.nodup_cons.1 hnodup
    rw [List.map_cons, enrol]
    by_cases hg : g = group
    · subst hg
      have hrest : ∀ k ∈ rest, inside k ++ (if k = g then calls else []) = inside k := by
        intro k hk
        rw [if_neg (by rintro rfl; exact hfresh hk), List.append_nil]
      rw [if_pos rfl, if_pos List.mem_cons_self, List.append_nil, List.map_cons, if_pos rfl]
      exact congrArg (_ :: ·) (List.map_congr_left fun k hk => by rw [hrest k hk])
    · have hcons : group ∈ g :: rest ↔ group ∈ rest := by simp [Ne.symm hg]
      have hrest := ih hnodup fun hmem => hnew (hcons.not.2 hmem)
      rw [if_neg hg, hrest]
      simp only [hcons, List.cons_append, List.map_cons, if_neg hg, List.append_nil]

/-- One more call opens its group, and is put into it if its identifier is new. -/
theorem groups_add (p : Participants) (c : Call) :
    (p.add c).groups
      = enrol c.group (if p.aliasFor? c.identifier = none then [c] else []) p.groups := by
  unfold add
  split
  · rename_i known hknown
    rw [if_neg (by simp [hknown])]
  · rename_i hnew
    rw [if_pos hnew]

/-- The boxes are those of the groups in the order of their first calls, and hold the first calls of
the identifiers. -/
theorem groups_ofCalls (calls : List Call) :
    (ofCalls calls).groups
      = (groupsOf calls).map fun g => (g, (firstsBy Call.identifier calls).filter fun c => c.group = g) := by
  induction calls using List.reverseRecOn with
  | nil => rfl
  | append_singleton calls c ih =>
    have hadd : ofCalls (calls ++ [c]) = (ofCalls calls).add c := by
      rw [ofCalls, List.foldl_append]
      rfl
    have hnew : (ofCalls calls).aliasFor? c.identifier = none
        ↔ c.identifier ∉ calls.map Call.identifier := by
      rw [aliasFor?_ofCalls, Option.map_eq_none_iff, List.find?_eq_none]
      simp
    have hempty : c.group ∉ groupsOf calls →
        (firstsBy Call.identifier calls).filter (fun d => d.group = c.group) = [] := by
      intro hgroup
      rw [List.filter_eq_nil_iff]
      intro d hd hsame
      exact hgroup (mem_groupsOf.2 ⟨d, (firstsBy_sublist Call.identifier calls).mem hd, by simpa using hsame⟩)
    rw [hadd, groups_add, ih, enrol_map (nodup_groupsOf calls) hempty,
      ← groupsOf_concat]
    refine List.map_congr_left fun g _ => ?_
    rw [firstsBy_concat, List.filter_append]
    by_cases hknown : c.identifier ∈ calls.map Call.identifier
    · simp [hknown, hnew]
    · by_cases hg : g = c.group
      · simp [hknown, hnew, hg]
      · simp [hknown, hg, Ne.symm hg]

theorem map_fst_groups_ofCalls (calls : List Call) :
    (ofCalls calls).groups.map Prod.fst = groupsOf calls := by
  rw [groups_ofCalls, List.map_map]
  exact List.map_id _

theorem length_eq_length_dedup {α : Type} [DecidableEq α] {l m : List α} (h : l.Nodup)
    (hmem : ∀ a, a ∈ l ↔ a ∈ m) : l.length = m.dedup.length := by
  have hperm : l.Perm m.dedup := by
    rw [List.perm_ext_iff_of_nodup h (List.nodup_dedup m)]
    intro a
    rw [hmem, List.mem_dedup]
  exact hperm.length_eq

/-- There are as many boxes as there are groups. -/
theorem length_groups_ofCalls (calls : List Call) :
    (ofCalls calls).groups.length = (calls.map Call.group).dedup.length := by
  rw [← List.length_map (f := Prod.fst), map_fst_groups_ofCalls]
  exact length_eq_length_dedup (nodup_groupsOf calls) fun _ => mem_firstsBy_id

/-- Every box is that of the group of a call. -/
theorem exists_call_of_mem_groups {calls : List Call} {box : Option Text × List Call}
    (h : box ∈ (ofCalls calls).groups) : ∃ c ∈ calls, c.group = box.1 := by
  rw [← mem_groupsOf, ← map_fst_groups_ofCalls]
  exact List.mem_map_of_mem h

/-- Every call is declared in the box of its group. -/
def Boxed (groups : List (Option Text × List Call)) : Prop :=
  ∀ box ∈ groups, ∀ c ∈ box.2, c.group = box.1

theorem boxed_ofCalls (calls : List Call) : Boxed (ofCalls calls).groups := by
  intro box hbox c hc
  rw [groups_ofCalls] at hbox
  obtain ⟨g, -, rfl⟩ := List.mem_map.1 hbox
  simpa using (List.mem_filter.1 hc).2

/-! ## Declared calls -/

/-- The calls that are declared, box by box. -/
def declared (p : Participants) : List Call := p.groups.flatMap Prod.snd

/-- What is declared are the first calls of all components. -/
theorem declared_ofCalls (calls : List Call) :
    (ofCalls calls).declared.Perm (firstsBy Call.identifier calls) := by
  have hdeclared : (ofCalls calls).declared
      = (groupsOf calls).flatMap fun g => (firstsBy Call.identifier calls).filter fun c => c.group = g := by
    rw [declared, groups_ofCalls, List.flatMap_map]
  have hfirst : (firstsBy Call.identifier calls).Nodup := (nodup_map_firstsBy Call.identifier calls).of_map
  -- no call is in the boxes of two groups
  have hnodup : (ofCalls calls).declared.Nodup := by
    rw [hdeclared, List.nodup_flatMap]
    refine ⟨fun g _ => hfirst.filter _, (nodup_groupsOf calls).imp fun hne c hc hc' => hne ?_⟩
    have hgroup := (List.mem_filter.1 hc).2
    have hgroup' := (List.mem_filter.1 hc').2
    simp_all
  refine (List.perm_ext_iff_of_nodup hnodup hfirst).2 fun c => ?_
  rw [hdeclared, List.mem_flatMap]
  constructor
  · rintro ⟨g, -, hc⟩
    exact (List.mem_filter.1 hc).1
  · intro hc
    have hgroup := mem_groupsOf.2 ⟨c, (firstsBy_sublist Call.identifier calls).mem hc, rfl⟩
    exact ⟨c.group, hgroup, List.mem_filter.2 ⟨hc, by simp⟩⟩

/-- No component is declared twice. -/
theorem nodup_identifier_declared (calls : List Call) :
    ((ofCalls calls).declared.map Call.identifier).Nodup :=
  ((declared_ofCalls calls).map Call.identifier).nodup_iff.2 (nodup_map_firstsBy Call.identifier calls)

theorem mem_of_mem_declared {calls : List Call} {e : Call} (h : e ∈ (ofCalls calls).declared) :
    e ∈ calls :=
  (firstsBy_sublist Call.identifier calls).mem ((declared_ofCalls calls).mem_iff.1 h)

end Participants

end CallDiagram
