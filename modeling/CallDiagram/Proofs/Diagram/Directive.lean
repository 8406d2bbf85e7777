import CallDiagram.Proofs.Diagram.Machine
import Mathlib.Data.List.Basic

/-!
# Directives read back

The first word of a directive of a section tells what it is, and its parts can be read off.

* `Line.read?` — the directive that a line of a section spells;
* `Line.Readable`, `read?_text` — directives that their lines tell, and that they do;
* `eq_of_map_text_eq`, `map_text_eq_of_document_eq` — documents of such directives, without line
  breaks in them, spell different directives differently.
-/

namespace CallDiagram.Line

/-! ## Reading a line of a section -/

/-- The participant that an arrow points to, and the comment behind it. -/
def target? (t : Text) : Option (Text × Option Text) :=
  match t.dropWhile (· != ':') with
  | [] => some (t, none)
  | ':' :: ' ' :: comment => some (t.takeWhile (· != ':'), some comment)
  | _ => none

/-- The arrow from a participant, given what follows the name of the participant. -/
def arrow? (source tail : Text) : Option Line :=
  match tail with
  | ' ' :: '-' :: '>' :: ' ' :: t => (target? t).map fun r => .arrow source r.1 r.2
  | ' ' :: '-' :: '-' :: '>' :: ' ' :: t => (target? t).map fun r => .answer source r.1 r.2
  | _ => none

/-- The participant whose label starts a text: the label ends at a quotation mark. -/
def participant? (t : Text) : Option Line :=
  (Text.dropStem? ['"', ' ', 'a', 's', ' '] (t.dropWhile (· != '"'))).map fun name =>
    .participant (t.takeWhile (· != '"')) name none

/-- The directive of a line whose first word and the rest behind it are given. -/
def ofWord? (word tail : Text) : Option Line :=
  if word = "==" then
    ((Text.dropStem? [' '] tail).bind (Text.dropEnding? " ==")).map .heading
  else if word = "box" then
    ((Text.dropStem? [' ', '"'] tail).bind (Text.dropEnding? ['"'])).map fun g => .box (some g)
  else if word = "participant" then (Text.dropStem? [' ', '"'] tail).bind participant?
  else if word = "activate" then (Text.dropStem? [' '] tail).map .activate
  else if word = "deactivate" then (Text.dropStem? [' '] tail).map .deactivate
  else if word = "loop" then (Text.dropStem? [' '] tail).map .loop
  else if word = "alt" then (Text.dropStem? [' '] tail).map .alt
  else if word = "else" then
    if tail = [] then some (.otherwise none)
    else (Text.dropStem? [' '] tail).map fun guard => .otherwise (some guard)
  else if word = "end" then
    if tail = [] then some .endAlt
    else if tail = " loop" then some .endLoop
    else if tail = " box" then some .endBox
    else none
  else arrow? word tail

/-- The directive that a line of a section spells. -/
def read? (line : Text) : Option Line :=
  ofWord? (line.takeWhile (· != ' ')) (line.dropWhile (· != ' '))

/-! ## Lines tell their directives -/

/-- The directives that their lines tell: those of sections whose groups are known, whose labels
hold no quotation mark, which have no links, and whose arrows join aliases that are told from other
words. -/
def Readable : Line → Prop
  | .heading _ => True
  | .box group => group ≠ none
  | .participant label _ link => '"' ∉ label ∧ link = none
  | .endBox => True
  | .arrow caller callee _ => IsAlias caller ∧ IsAlias callee
  | .activate _ => True
  | .answer callee caller _ => IsAlias callee ∧ IsAlias caller
  | .deactivate _ => True
  | .loop _ => True
  | .endLoop => True
  | .alt _ => True
  | .otherwise _ => True
  | .endAlt => True
  | _ => False

theorem read?_of_word {word : Text} (h : ' ' ∉ word) (tail : Text) :
    read? (word ++ ' ' :: tail) = ofWord? word (' ' :: tail) := by
  obtain ⟨htake, hdrop⟩ := Text.takeWhile_ne_append h tail
  rw [read?, htake, hdrop]

/-- What stands in front of a known ending is found. -/
theorem dropEnding?_append (front ending : Text) :
    Text.dropEnding? ending (front ++ ending) = some front :=
  Text.dropEnding?_eq_some.2 rfl

theorem target?_text {name : Text} (h : IsAlias name) (comment : Option Text) :
    target? (name ++ behindArrow comment) = some (name, comment) := by
  cases comment with
  | none =>
    obtain ⟨-, hdrop⟩ := Text.takeWhile_ne_of_not_mem h.no_colon
    rw [behindArrow, List.append_nil, target?, hdrop]
  | some words =>
    obtain ⟨htake, hdrop⟩ := Text.takeWhile_ne_append h.no_colon (' ' :: words)
    simp only [behindArrow, target?, hdrop, htake]

/-- No alias is one of the words that start other directives. -/
theorem ofWord?_of_alias {name : Text} (h : IsAlias name) (tail : Text) :
    ofWord? name tail = arrow? name tail := by
  have hne : ∀ word : Text, word.head? ≠ some 'C' → name ≠ word := fun _ => h.ne_word
  simp only [ofWord?, if_neg (hne "==" (by decide)), if_neg (hne "box" (by decide)),
    if_neg (hne "participant" (by decide)), if_neg (hne "activate" (by decide)),
    if_neg (hne "deactivate" (by decide)), if_neg (hne "loop" (by decide)),
    if_neg (hne "alt" (by decide)), if_neg (hne "else" (by decide)),
    if_neg (hne "end" (by decide))]

/-- A readable directive is read from its line. -/
theorem read?_text {l : Line} (h : l.Readable) : read? l.text = some l := by
  cases l with
  | heading words =>
    have htext : (heading words).text = ("==" : Text) ++ ' ' :: (words ++ " ==") := by
      show ("== " : Text) ++ words ++ (" ==" : Text) = _
      simp
    rw [htext, read?_of_word (by decide)]
    simp [ofWord?, Text.dropStem?, dropEnding?_append]
  | box group =>
    obtain ⟨g, rfl⟩ := Option.ne_none_iff_exists'.1 h
    have htext : (box (some g)).text = ("box" : Text) ++ ' ' :: '"' :: (g ++ ['"']) := by
      show ("box \"" : Text) ++ g ++ ("\"" : Text) = _
      simp
    rw [htext, read?_of_word (by decide)]
    simp [ofWord?, Text.dropStem?, dropEnding?_append]
  | participant label name link =>
    obtain ⟨hlabel, rfl⟩ := h
    have htext : (participant label name none).text
        = ("participant" : Text) ++ ' ' :: '"' ::
            (label ++ '"' :: ' ' :: 'a' :: 's' :: ' ' :: name) := by
      show ("participant \"" : Text) ++ label ++ ("\" as " : Text) ++ name ++ [] = _
      simp
    obtain ⟨htake, hdrop⟩ := Text.takeWhile_ne_append hlabel (' ' :: 'a' :: 's' :: ' ' :: name)
    rw [htext, read?_of_word (by decide)]
    simp [ofWord?, Text.dropStem?, participant?, htake, hdrop]
  | endBox => decide
  | arrow caller callee comment =>
    obtain ⟨hcaller, hcallee⟩ := h
    rw [text_arrow, read?_of_word hcaller.no_space, ofWord?_of_alias hcaller]
    simp only [arrow?, target?_text hcallee, Option.map_some]
  | activate name =>
    have htext : (activate name).text = ("activate" : Text) ++ ' ' :: name := rfl
    rw [htext, read?_of_word (by decide)]
    simp [ofWord?, Text.dropStem?]
  | answer callee caller comment =>
    obtain ⟨hcallee, hcaller⟩ := h
    rw [text_answer, read?_of_word hcallee.no_space, ofWord?_of_alias hcallee]
    simp only [arrow?, target?_text hcaller, Option.map_some]
  | deactivate name =>
    have htext : (deactivate name).text = ("deactivate" : Text) ++ ' ' :: name := rfl
    rw [htext, read?_of_word (by decide)]
    simp [ofWord?, Text.dropStem?]
  | loop note =>
    have htext : (loop note).text = ("loop" : Text) ++ ' ' :: note := rfl
    rw [htext, read?_of_word (by decide)]
    simp [ofWord?, Text.dropStem?]
  | endLoop => decide
  | alt guard =>
    have htext : (alt guard).text = ("alt" : Text) ++ ' ' :: guard := rfl
    rw [htext, read?_of_word (by decide)]
    simp [ofWord?, Text.dropStem?]
  | otherwise guard =>
    cases guard with
    | none => decide
    | some words =>
      have htext : (otherwise (some words)).text = ("else" : Text) ++ ' ' :: words := rfl
      rw [htext, read?_of_word (by decide)]
      simp [ofWord?, Text.dropStem?]
  | endAlt => decide
  | _ => exact absurd h id

/-- Readable directives are told by their lines. -/
theorem eq_of_map_text_eq {ls ls' : List Line} (h : ∀ l ∈ ls, l.Readable)
    (h' : ∀ l ∈ ls', l.Readable) (heq : ls.map text = ls'.map text) : ls = ls' := by
  have hread : ∀ {ls : List Line}, (∀ l ∈ ls, l.Readable) →
      (ls.map text).map read? = ls.map some := by
    intro ls hls
    rw [List.map_map]
    exact List.map_congr_left fun l hl => read?_text (hls l hl)
  have hsome := (hread h).symm.trans ((congrArg _ heq).trans (hread h'))
  exact List.map_injective_iff.2 (fun _ _ => Option.some.inj) hsome

/-! ## Lines of a document -/

/-- The texts that the spelling of a directive is made of, apart from fixed words. -/
def parts : Line → List Text
  | .opening => []
  | .layout name value => [name, Text.natural value]
  | .title group method => [Call.groupText group, method]
  | .heading words => [words]
  | .box group => [Call.groupText group]
  | .participant label name link => label :: name :: link.toList
  | .endBox => []
  | .arrow caller callee comment => caller :: callee :: comment.toList
  | .activate name => [name]
  | .answer callee caller comment => callee :: caller :: comment.toList
  | .deactivate name => [name]
  | .loop note => [note]
  | .endLoop => []
  | .alt guard => [guard]
  | .otherwise guard => guard.toList
  | .endAlt => []
  | .closing => []

theorem not_mem_break_behindArrow (comment : Option Text) (h : ∀ t ∈ comment, '\n' ∉ t) :
    '\n' ∉ behindArrow comment := by
  cases comment with
  | none => simp [behindArrow]
  | some t => simpa [behindArrow] using h

/-- A directive whose parts hold no line break is spelled without one. -/
theorem not_mem_break_text {l : Line} (h : ∀ t ∈ l.parts, '\n' ∉ t) : '\n' ∉ l.text := by
  cases l with
  | layout name value =>
    show '\n' ∉ ("skinparam " : Text) ++ name ++ ' ' :: Text.natural value
    simpa [parts] using h
  | title group method =>
    show '\n' ∉ ("title " : Text) ++ Call.groupText group ++ '#' :: (method ++ ("()" : Text))
    simpa [parts] using h
  | heading words =>
    show '\n' ∉ ("== " : Text) ++ words ++ (" ==" : Text)
    simpa [parts] using h
  | box group =>
    show '\n' ∉ ("box \"" : Text) ++ Call.groupText group ++ ("\"" : Text)
    simpa [parts] using h
  | participant label name link =>
    cases link with
    | none =>
      show '\n' ∉ ("participant \"" : Text) ++ label ++ ("\" as " : Text) ++ name ++ []
      simpa [parts] using h
    | some t =>
      show '\n' ∉ ("participant \"" : Text) ++ label ++ ("\" as " : Text) ++ name
        ++ ((" [[" : Text) ++ t ++ ("]]" : Text))
      simpa [parts] using h
  | arrow caller callee comment =>
    have hcomment := not_mem_break_behindArrow comment fun t ht =>
      h t (by simp [parts, Option.mem_def.1 ht])
    show '\n' ∉ caller ++ (" -> " : Text) ++ callee ++ behindArrow comment
    simp_all [parts]
  | answer callee caller comment =>
    have hcomment := not_mem_break_behindArrow comment fun t ht =>
      h t (by simp [parts, Option.mem_def.1 ht])
    show '\n' ∉ callee ++ (" --> " : Text) ++ caller ++ behindArrow comment
    simp_all [parts]
  | activate name =>
    show '\n' ∉ ("activate " : Text) ++ name
    simpa [parts] using h
  | deactivate name =>
    show '\n' ∉ ("deactivate " : Text) ++ name
    simpa [parts] using h
  | loop note =>
    show '\n' ∉ ("loop " : Text) ++ note
    simpa [parts] using h
  | alt guard =>
    show '\n' ∉ ("alt " : Text) ++ guard
    simpa [parts] using h
  | otherwise guard =>
    cases guard with
    | none => decide
    | some words =>
      show '\n' ∉ ("else " : Text) ++ words
      simpa [parts] using h
  | _ => decide

/-- A document tells its lines, if none of them holds a line break. -/
theorem map_text_eq_of_document_eq {ls ls' : List Line} (hne : ls ≠ []) (hne' : ls' ≠ [])
    (h : ∀ l ∈ ls, '\n' ∉ l.text) (h' : ∀ l ∈ ls', '\n' ∉ l.text)
    (heq : document ls = document ls') : ls.map text = ls'.map text := by
  have hsplit : ∀ {ls : List Line}, ls ≠ [] → (∀ l ∈ ls, '\n' ∉ l.text) →
      (document ls).splitOn '\n' = ls.map text := by
    intro ls hls hbreak
    exact List.splitOn_intercalate _ (by simpa using hbreak) (by simpa using hls)
  rw [← hsplit hne h, heq, hsplit hne' h']

end CallDiagram.Line
