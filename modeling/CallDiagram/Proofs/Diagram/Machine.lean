import CallDiagram.Diagram.Line
import CallDiagram.Proofs.Text.Trim

/-!
# A machine that reads call graphs

The directives of a call graph drive a machine with a stack: activities, loops and regions of
alternatives are opened and closed, and an arrow names what must come next.

* `Move`, `Move.read?` — what a line of a call graph asks for;
* `Frame`, `Machine` — what is open, and the move that is due;
* `Machine.step?`, `Machine.run?` — one line, all lines; `none` where the machine is stuck;
* `read?_activate`, … — every directive is read as the move it stands for.
-/

namespace CallDiagram

/-! ## Moves -/

/-- What a line of a call graph asks for. -/
inductive Move where
  /-- The start of an activity. -/
  | activate (name : Text)
  /-- The end of an activity. -/
  | deactivate (name : Text)
  /-- The start of a loop. -/
  | loop
  /-- The end of a loop. -/
  | endLoop
  /-- The start of a region of alternatives. -/
  | alt
  /-- The next alternative of a region. -/
  | otherwise
  /-- The end of a region of alternatives. -/
  | endAlt
  /-- A call from one participant to another. -/
  | call (caller callee : Text)
  /-- The return from a participant to its caller. -/
  | back (callee caller : Text)
  deriving DecidableEq, Repr

/-- The participant that an arrow points to: all of the text, or what stands in front of a comment
behind a colon. -/
def arrowHead? (t : Text) : Option Text :=
  match t.dropWhile (· != ':') with
  | [] => some t
  | ':' :: ' ' :: _ => some (t.takeWhile (· != ':'))
  | _ => none

/-- The move of an arrow from a participant, given what follows the name of the participant. -/
def arrow? (source tail : Text) : Option Move :=
  match tail with
  | ' ' :: '-' :: '>' :: ' ' :: target => (arrowHead? target).map (.call source)
  | ' ' :: '-' :: '-' :: '>' :: ' ' :: target => (arrowHead? target).map (.back source)
  | _ => none

/-- The move of a line whose first word and the rest behind it are given. -/
def Move.ofWord? (word tail : Text) : Option Move :=
  if word = "activate" then (Text.dropStem? [' '] tail).map .activate
  else if word = "deactivate" then (Text.dropStem? [' '] tail).map .deactivate
  else if word = "loop" then (Text.dropStem? [' '] tail).map fun _ => .loop
  else if word = "alt" then (Text.dropStem? [' '] tail).map fun _ => .alt
  else if word = "else" then some .otherwise
  else if word = "end" then
    if tail = [] then some .endAlt else if tail = " loop" then some .endLoop else none
  else arrow? word tail

/-- The move of a line. -/
def Move.read? (line : Text) : Option Move :=
  ofWord? (line.takeWhile (· != ' ')) (line.dropWhile (· != ' '))

/-! ## The machine -/

/-- What is open. -/
inductive Frame where
  /-- The activity of a participant. -/
  | act (name : Text)
  /-- A loop. -/
  | loop
  /-- A region of alternatives. -/
  | alt
  deriving DecidableEq, Repr

/-- The participant of the innermost activity. -/
def innermost : List Frame → Option Text
  | [] => none
  | .act name :: _ => some name
  | _ :: rest => innermost rest

/-- What is open, the innermost first, and the move that must come next, if there is one. -/
structure Machine where
  stack : List Frame := []
  due : Option Move := none
  deriving DecidableEq, Repr

/-- The machine behind a move, with what is open in front of it. -/
def Move.effect? : Move → List Frame → Option Machine
  | .activate a, stack => some { stack := .act a :: stack }
  | .deactivate a, .act b :: stack => if a = b then some { stack := stack } else none
  | .loop, stack => some { stack := .loop :: stack }
  | .endLoop, .loop :: stack => some { stack := stack }
  | .alt, stack => some { stack := .alt :: stack }
  | .otherwise, .alt :: stack => some { stack := .alt :: stack }
  | .endAlt, .alt :: stack => some { stack := stack }
  | .call a b, stack =>
      if innermost stack = some a then some { stack := stack, due := some (.activate b) } else none
  | .back b a, .act c :: stack =>
      if b = c ∧ innermost stack = some a then
        some { stack := .act c :: stack, due := some (.deactivate b) }
      else none
  | _, _ => none

namespace Machine

/-- The machine behind a line. -/
def step? (m : Machine) (line : Text) : Option Machine :=
  (Move.read? line).bind fun v =>
    if m.due = none ∨ m.due = some v then v.effect? m.stack else none

/-- The machine behind some lines. -/
def run? (m : Machine) (lines : List Text) : Option Machine := lines.foldlM step? m

theorem run?_cons {m m' : Machine} {line : Text} (h : m.step? line = some m')
    (lines : List Text) : m.run? (line :: lines) = m'.run? lines := by
  rw [run?, List.foldlM_cons, h]
  rfl

/-- A participant that is not the innermost one cannot call. -/
example : run? {} ["activate C1", "C2 -> C1: x", "activate C1"] = none := by decide

end Machine

/-! ## Reading directives -/

theorem read?_word {word : Text} (h : ' ' ∉ word) (tail : Text) :
    Move.read? (word ++ ' ' :: tail) = Move.ofWord? word (' ' :: tail) := by
  obtain ⟨htake, hdrop⟩ := Text.takeWhile_ne_append h tail
  rw [Move.read?, htake, hdrop]

theorem read?_activate (name : Text) :
    Move.read? (Line.activate name).text = some (.activate name) := by
  have htext : (Line.activate name).text = ("activate" : Text) ++ ' ' :: name := rfl
  rw [htext, read?_word (by decide)]
  simp [Move.ofWord?, Text.dropStem?]

theorem read?_deactivate (name : Text) :
    Move.read? (Line.deactivate name).text = some (.deactivate name) := by
  have htext : (Line.deactivate name).text = ("deactivate" : Text) ++ ' ' :: name := rfl
  rw [htext, read?_word (by decide)]
  simp [Move.ofWord?, Text.dropStem?]

theorem read?_loop (note : Text) : Move.read? (Line.loop note).text = some .loop := by
  have htext : (Line.loop note).text = ("loop" : Text) ++ ' ' :: note := rfl
  rw [htext, read?_word (by decide)]
  simp [Move.ofWord?, Text.dropStem?]

theorem read?_endLoop : Move.read? Line.endLoop.text = some .endLoop := by decide

theorem read?_alt (guard : Text) : Move.read? (Line.alt guard).text = some .alt := by
  have htext : (Line.alt guard).text = ("alt" : Text) ++ ' ' :: guard := rfl
  rw [htext, read?_word (by decide)]
  simp [Move.ofWord?, Text.dropStem?]

theorem read?_otherwise (guard : Option Text) :
    Move.read? (Line.otherwise guard).text = some .otherwise := by
  cases guard with
  | none => decide
  | some note =>
    have htext : (Line.otherwise (some note)).text = ("else" : Text) ++ ' ' :: note := rfl
    rw [htext, read?_word (by decide)]
    simp [Move.ofWord?]

theorem read?_endAlt : Move.read? Line.endAlt.text = some .endAlt := by decide

/-! ### Arrows -/

/-- The aliases that the machine tells from its other words: they start with the usual letter and
hold neither a space nor a colon. -/
structure IsAlias (t : Text) : Prop where
  head : t.head? = some 'C'
  no_space : ' ' ∉ t
  no_colon : ':' ∉ t

/-- No alias is a word that starts with another letter. -/
theorem IsAlias.ne_word {name word : Text} (h : IsAlias name) (hword : word.head? ≠ some 'C') :
    name ≠ word := by
  rintro rfl
  exact hword h.head

theorem Line.text_arrow (a b : Text) (comment : Option Text) :
    (Line.arrow a b comment).text
      = a ++ ' ' :: '-' :: '>' :: ' ' :: (b ++ Line.behindArrow comment) := by
  show a ++ (" -> " : Text) ++ b ++ Line.behindArrow comment = _
  simp

theorem Line.text_answer (b a : Text) (comment : Option Text) :
    (Line.answer b a comment).text
      = b ++ ' ' :: '-' :: '-' :: '>' :: ' ' :: (a ++ Line.behindArrow comment) := by
  show b ++ (" --> " : Text) ++ a ++ Line.behindArrow comment = _
  simp

theorem arrowHead?_text {name : Text} (h : IsAlias name) (comment : Option Text) :
    arrowHead? (name ++ Line.behindArrow comment) = some name := by
  cases comment with
  | none =>
    obtain ⟨-, hdrop⟩ := Text.takeWhile_ne_of_not_mem h.no_colon
    rw [Line.behindArrow, List.append_nil, arrowHead?, hdrop]
  | some words =>
    obtain ⟨htake, hdrop⟩ := Text.takeWhile_ne_append h.no_colon (' ' :: words)
    simp only [Line.behindArrow, arrowHead?, hdrop, htake]

/-- No alias is one of the words that start other moves. -/
theorem ofWord?_alias {name : Text} (h : IsAlias name) (tail : Text) :
    Move.ofWord? name tail = arrow? name tail := by
  have hne : ∀ word : Text, word.head? ≠ some 'C' → name ≠ word := fun _ => h.ne_word
  simp only [Move.ofWord?, if_neg (hne "activate" (by decide)),
    if_neg (hne "deactivate" (by decide)), if_neg (hne "loop" (by decide)),
    if_neg (hne "alt" (by decide)), if_neg (hne "else" (by decide)),
    if_neg (hne "end" (by decide))]

theorem read?_arrow {a b : Text} (ha : IsAlias a) (hb : IsAlias b) (comment : Option Text) :
    Move.read? (Line.arrow a b comment).text = some (.call a b) := by
  rw [Line.text_arrow, read?_word ha.no_space, ofWord?_alias ha]
  simp only [arrow?, arrowHead?_text hb, Option.map_some]

theorem read?_answer {a b : Text} (ha : IsAlias a) (hb : IsAlias b) (comment : Option Text) :
    Move.read? (Line.answer b a comment).text = some (.back b a) := by
  rw [Line.text_answer, read?_word hb.no_space, ofWord?_alias hb]
  simp only [arrow?, arrowHead?_text ha, Option.map_some]

end CallDiagram
