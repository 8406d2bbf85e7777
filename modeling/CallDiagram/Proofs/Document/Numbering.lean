import CallDiagram.Document.Alias
import Mathlib.Data.List.Nodup

/-!
# Numbered nodes

Numbering gives the calls of a list of nodes the aliases that a counter draws, and changes nothing
else.

* `Node.call?_mapCall`, `Node.mapCall_eq_self` — what a change of calls does to a node;
* `Node.moved` — a node at another place, with the same statement;
* `map_number`, `number_map` — what does not look at aliases does not see the numbering;
* `aliases_number`, `number_eq_self` — numbered nodes have the aliases that are drawn, and nodes
  that have them are numbered;
* `aliasName_advance_inj`, `nodup_draw` — no alias is drawn twice;
* `issue_of_writable`, `issue_of_not_writable` — what the limit of written numbers does.
-/

namespace CallDiagram

/-! ## Calls of nodes -/

namespace Node

/-- The node with an alias for its call. -/
def withAlias (name : Text) (n : Node) : Node := n.mapCall fun c => { c with aliasName := name }

/-- The alias of the call of a node. -/
def aliasName? (n : Node) : Option Text := n.call?.map Call.aliasName

/-- The line that a node came from, and its indent. -/
def place (n : Node) : Int × Text × Int := (n.index, n.source, n.indent)

theorem statement_of_call? {n : Node} {c : Call} (h : n.call? = some c) :
    n.statement = .call c := by
  obtain ⟨index, source, indent, statement⟩ := n
  cases statement with
  | call d => rw [Option.some.inj h]
  | _ => simp [call?, Statement.call?] at h

theorem call?_mapCall (f : Call → Call) (n : Node) : (n.mapCall f).call? = n.call?.map f := by
  obtain ⟨index, source, indent, statement⟩ := n
  cases statement <;> rfl

theorem mapCall_mapCall (g f : Call → Call) (n : Node) :
    (n.mapCall f).mapCall g = n.mapCall (g ∘ f) := by
  obtain ⟨index, source, indent, statement⟩ := n
  cases statement <;> rfl

theorem mapCall_eq_self {f : Call → Call} {n : Node} (h : ∀ c, n.call? = some c → f c = c) :
    n.mapCall f = n := by
  obtain ⟨index, source, indent, statement⟩ := n
  cases statement with
  | call c => simp [mapCall, h c rfl]
  | _ => rfl

theorem aliasName?_mapCall {f : Call → Call} (hf : ∀ c, (f c).aliasName = c.aliasName) (n : Node) :
    (n.mapCall f).aliasName? = n.aliasName? := by
  rw [aliasName?, call?_mapCall, Option.map_map, aliasName?]
  exact congrArg (fun k => n.call?.map k) (funext hf)

theorem place_mapCall (f : Call → Call) (n : Node) : (n.mapCall f).place = n.place := by
  unfold mapCall
  split <;> rfl

theorem place_withAlias (name : Text) (n : Node) : (n.withAlias name).place = n.place :=
  place_mapCall _ n

/-- The node at the place that a function gives. -/
def moved (m : Int × Text × Int → Int × Text × Int) (n : Node) : Node :=
  ⟨(m n.place).1, (m n.place).2.1, (m n.place).2.2, n.statement⟩

section Moved

variable (m : Int × Text × Int → Int × Text × Int) (n : Node)

@[simp] theorem statement_moved : (n.moved m).statement = n.statement := rfl

@[simp] theorem call?_moved : (n.moved m).call? = n.call? := rfl

theorem moved_mapCall (f : Call → Call) : (n.mapCall f).moved m = (n.moved m).mapCall f := by
  obtain ⟨index, source, indent, statement⟩ := n
  cases statement <;> rfl

end Moved

end Node

/-! ## Numbering -/

theorem number_cons (counter : Counter) (n : Node) (rest : List Node) :
    number counter (n :: rest)
      = n.withAlias counter.aliasName :: number (counter.advance (callCount [n])) rest := by
  obtain ⟨index, source, indent, statement⟩ := n
  cases statement <;> simp [number, Node.withAlias, Node.mapCall, callCount, Node.call?,
    Statement.call?, Counter.advance]

theorem Counter.advance_zero (counter : Counter) : counter.advance 0 = counter := by
  simp [Counter.advance]

theorem callCount_cons (n : Node) (rest : List Node) :
    callCount (n :: rest) = callCount [n] + callCount rest := by
  simp [callCount, List.countP_cons, Nat.add_comm]

/-- As many calls are counted if the nodes are calls at the same positions. -/
theorem callCount_eq_of_map_eq {nodes nodes' : List Node}
    (h : nodes.map (fun n => n.call?.isSome) = nodes'.map fun n => n.call?.isSome) :
    callCount nodes = callCount nodes' := by
  have hcount := congrArg (List.countP id) h
  rwa [List.countP_map, List.countP_map] at hcount

/-- Numbering changes nothing but aliases. -/
theorem map_number {β : Type} {g : Node → β} (hg : ∀ name n, g (n.withAlias name) = g n)
    (counter : Counter) (nodes : List Node) : (number counter nodes).map g = nodes.map g := by
  induction nodes generalizing counter with
  | nil => rfl
  | cons n rest ih => rw [number_cons, List.map_cons, List.map_cons, hg, ih]

theorem callCount_number (counter : Counter) (nodes : List Node) :
    callCount (number counter nodes) = callCount nodes :=
  callCount_eq_of_map_eq <| map_number
    (fun name n => by rw [Node.withAlias, Node.call?_mapCall, Option.isSome_map]) counter nodes

theorem aliasName?_withAlias (name : Text) (n : Node) :
    (n.withAlias name).aliasName? = n.call?.map fun _ => name := by
  rw [Node.aliasName?, Node.withAlias, Node.call?_mapCall, Option.map_map]
  rfl

/-- The aliases of numbered nodes are those that the counter draws. -/
theorem aliases_number (counter : Counter) (nodes : List Node) :
    (number counter nodes).filterMap Node.aliasName? = counter.draw (callCount nodes) := by
  induction nodes generalizing counter with
  | nil => rfl
  | cons n rest ih =>
    rw [number_cons, callCount_cons n rest]
    cases hn : n.call? with
    | none =>
      have hcount : callCount [n] = 0 := by simp [callCount, hn]
      rw [List.filterMap_cons_none (by rw [aliasName?_withAlias, hn, Option.map_none]), ih, hcount,
        Nat.zero_add, Counter.advance_zero]
    | some c =>
      have hcount : callCount [n] = 1 := by simp [callCount, hn]
      rw [List.filterMap_cons_some (by rw [aliasName?_withAlias, hn, Option.map_some]), ih, hcount,
        Nat.add_comm 1, Counter.draw]

theorem mem_draw {counter : Counter} {n : Nat} {name : Text} (h : name ∈ counter.draw n) :
    ∃ k : Nat, k < n ∧ name = (counter.advance k).aliasName := by
  induction n generalizing counter with
  | zero => simp [Counter.draw] at h
  | succ n ih =>
    rcases List.mem_cons.1 h with rfl | h
    · exact ⟨0, by omega, by rw [Counter.advance_zero]⟩
    · obtain ⟨k, hk, rfl⟩ := ih h
      exact ⟨k + 1, by omega, by rw [Counter.advance_advance, Nat.add_comm]⟩

/-- Nodes that have the aliases that the counter draws are numbered already. -/
theorem number_eq_self {counter : Counter} {nodes : List Node}
    (h : nodes.filterMap Node.aliasName? = counter.draw (callCount nodes)) :
    number counter nodes = nodes := by
  induction nodes generalizing counter with
  | nil => rfl
  | cons n rest ih =>
    rw [number_cons]
    rw [callCount_cons n rest] at h
    cases hn : n.call? with
    | none =>
      have hcount : callCount [n] = 0 := by simp [callCount, hn]
      rw [hcount, Nat.zero_add, List.filterMap_cons_none (by simp [Node.aliasName?, hn])] at h
      rw [hcount, Counter.advance_zero, ih h, Node.withAlias, Node.mapCall_eq_self (by simp [hn])]
    | some c =>
      have hcount : callCount [n] = 1 := by simp [callCount, hn]
      rw [hcount, Nat.add_comm 1, Counter.draw,
        List.filterMap_cons_some (by rw [Node.aliasName?, hn, Option.map_some])] at h
      obtain ⟨hname, hrest⟩ := List.cons.inj h
      rw [hcount, ih hrest, Node.withAlias, Node.mapCall_eq_self]
      rintro d hd
      obtain rfl : c = d := Option.some.inj (hn.symm.trans hd)
      rw [← hname]

/-- Numbering commutes with a change of nodes that does not look at aliases. -/
theorem number_map {h : Node → Node} (hcall : ∀ n, (h n).call?.isSome = n.call?.isSome)
    (halias : ∀ name n, h (n.withAlias name) = (h n).withAlias name) (counter : Counter)
    (nodes : List Node) : number counter (nodes.map h) = (number counter nodes).map h := by
  induction nodes generalizing counter with
  | nil => rfl
  | cons n rest ih =>
    have hcount : callCount [h n] = callCount [n] := callCount_eq_of_map_eq (by simp [hcall])
    rw [List.map_cons, number_cons, number_cons, List.map_cons, halias, hcount, ih]

/-- Numbering does not look at places. -/
theorem number_moved (m : Int × Text × Int → Int × Text × Int) (counter : Counter)
    (nodes : List Node) :
    number counter (nodes.map (Node.moved m)) = (number counter nodes).map (Node.moved m) :=
  number_map (h := Node.moved m) (fun _ => rfl) (fun _ n => Node.moved_mapCall m n _) counter nodes

theorem callCount_append (front rest : List Node) :
    callCount (front ++ rest) = callCount front + callCount rest :=
  List.countP_append

/-- Nodes behind others are numbered from where these have left the counter. -/
theorem number_append (counter : Counter) (front rest : List Node) :
    number counter (front ++ rest)
      = number counter front ++ number (counter.advance (callCount front)) rest := by
  induction front generalizing counter with
  | nil => simp [number, callCount, Counter.advance_zero]
  | cons n front ih =>
    rw [List.cons_append, number_cons, number_cons, ih, callCount_cons n front,
      Counter.advance_advance, List.cons_append]

/-- The aliases that nodes have already do not count. -/
theorem number_map_withAlias (name : Text) (counter : Counter) (nodes : List Node) :
    number counter (nodes.map (Node.withAlias name)) = number counter nodes := by
  induction nodes generalizing counter with
  | nil => rfl
  | cons n rest ih =>
    have hcount : callCount [n.withAlias name] = callCount [n] :=
      callCount_eq_of_map_eq (by simp [Node.withAlias, Node.call?_mapCall])
    have halias : (n.withAlias name).withAlias counter.aliasName = n.withAlias counter.aliasName :=
      Node.mapCall_mapCall _ _ n
    rw [List.map_cons, number_cons, number_cons counter n rest, hcount, halias, ih]

/-! ## No alias is drawn twice -/

theorem natural_injective : Function.Injective Text.natural := fun m n h => by
  have hvalue := congrArg (fun digits => Nat.ofDigitChars 10 digits 0) h
  simpa [Text.natural, Nat.ofDigitChars_toDigits] using hvalue

theorem isDigit_of_mem_natural {n : Nat} {c : Char} (hc : c ∈ Text.natural n) :
    c.isDigit = true :=
  Nat.isDigit_of_mem_toDigits (by omega) (by omega) hc

/-- A numeral is made of digits and the sign of negative numbers. -/
theorem isDigit_or_minus_of_mem_integer {n : Int} {c : Char} (hc : c ∈ Text.integer n) :
    c.isDigit = true ∨ c = '-' := by
  cases n with
  | ofNat k => exact Or.inl (isDigit_of_mem_natural hc)
  | negSucc k =>
    rcases List.mem_cons.1 hc with rfl | hc
    · exact Or.inr rfl
    · exact Or.inl (isDigit_of_mem_natural hc)

/-- A numeral ends in a digit. -/
theorem exists_getLast?_integer (n : Int) :
    ∃ c, (Text.integer n).getLast? = some c ∧ c.isDigit = true := by
  have hnatural : ∀ k, ∃ c, (Text.natural k).getLast? = some c ∧ c.isDigit = true := by
    intro k
    have hne : Text.natural k ≠ [] := Nat.toDigits_ne_nil
    exact ⟨_, List.getLast?_eq_some_getLast hne, isDigit_of_mem_natural (List.getLast_mem hne)⟩
  cases n with
  | ofNat k => exact hnatural k
  | negSucc k =>
    obtain ⟨c, hlast, hdigit⟩ := hnatural (k + 1)
    exact ⟨c, by rw [Text.integer, List.getLast?_cons, hlast, Option.getD_some], hdigit⟩

theorem natural_ne_minus_cons (n : Nat) (t : Text) : Text.natural n ≠ '-' :: t := fun h => by
  have hdigit : ('-' : Char).isDigit = true := isDigit_of_mem_natural (h ▸ List.mem_cons_self)
  exact absurd hdigit (by decide)

theorem integer_injective : Function.Injective Text.integer := by
  intro m n h
  cases m with
  | ofNat m =>
    cases n with
    | ofNat n => rw [natural_injective h]
    | negSucc n => exact absurd h (natural_ne_minus_cons m _)
  | negSucc m =>
    cases n with
    | ofNat n => exact absurd h.symm (natural_ne_minus_cons n _)
    | negSucc n =>
      have hsucc := natural_injective (List.cons.inj h).2
      rw [Nat.succ.inj hsucc]

/-- The aliases behind different numbers of draws are different. -/
theorem aliasName_advance_inj {counter : Counter} {j k : Nat}
    (h : (counter.advance j).aliasName = (counter.advance k).aliasName) : j = k := by
  have hnumber : counter.next + (j : Int) = counter.next + (k : Int) :=
    integer_injective (List.append_cancel_left h)
  omega

theorem draw_eq_map_range (counter : Counter) (n : Nat) :
    counter.draw n = (List.range n).map fun k => (counter.advance k).aliasName := by
  induction n generalizing counter with
  | zero => rfl
  | succ n ih =>
    rw [Counter.draw, ih, List.range_succ_eq_map, List.map_cons, List.map_map,
      Counter.advance_zero]
    simp [Counter.advance_advance, Function.comp_def, Nat.add_comm]

/-- No alias is drawn twice. -/
theorem nodup_draw (counter : Counter) (n : Nat) : (counter.draw n).Nodup := by
  rw [draw_eq_map_range]
  exact List.nodup_range.map fun _ _ => aliasName_advance_inj

/-! ## Long numbers -/

/-- Numbers can be written if the first of them can and those behind these can. -/
theorem isWritable_of_advance {counter : Counter} {m n : Nat}
    (h : ∀ k < m, Number.isWritable (counter.next + k) = true)
    (h' : ∀ k < n, Number.isWritable ((counter.advance m).next + k) = true) :
    ∀ k < m + n, Number.isWritable (counter.next + k) = true := by
  intro k hk
  by_cases hle : k < m
  · exact h k hle
  · have hnumber := h' (k - m) (by omega)
    have hsum : (counter.advance m).next + ((k - m : Nat) : Int) = counter.next + k := by
      show counter.next + (m : Int) + ((k - m : Nat) : Int) = counter.next + k
      omega
    rwa [hsum] at hnumber

theorem issue_of_writable {counter : Counter} {n : Nat}
    (h : ∀ k < n, Number.isWritable (counter.next + k) = true) :
    (counter.issue n).1 = .ok (counter.draw n) := by
  induction n generalizing counter with
  | zero => rfl
  | succ n ih =>
    have hfirst : Number.isWritable counter.next = true := by simpa using h 0 (by omega)
    have hrest : ∀ k < n, Number.isWritable ((counter.advance 1).next + k) = true := by
      intro k hk
      have := h (k + 1) (by omega)
      simpa [Counter.advance, Int.add_assoc, Int.add_comm 1] using this
    simp [Counter.issue, Number.write, hfirst, ih hrest, Counter.draw, Counter.aliasName,
      Except.map]

theorem issue_of_not_writable {counter : Counter} {n k : Nat} (hk : k < n)
    (h : Number.isWritable (counter.next + k) = false) :
    (counter.issue n).1 = .error .tooManyDigits := by
  induction n generalizing counter k with
  | zero => omega
  | succ n ih =>
    cases hfirst : Number.isWritable counter.next with
    | false => simp [Counter.issue, Number.write, hfirst]
    | true =>
      cases k with
      | zero => simp [hfirst] at h
      | succ k =>
        have hrest : Number.isWritable ((counter.advance 1).next + k) = false := by
          simpa [Counter.advance, Int.add_assoc, Int.add_comm 1] using h
        simp [Counter.issue, Number.write, hfirst, ih (by omega) hrest, Except.map]

end CallDiagram
