import CallDiagram.Proofs.Files.Access
import CallDiagram.Proofs.Settings.Readings
import CallDiagram.Rendering.Basic

/-!
# The program that is started

The command of an environment has a word, unless its variable holds nothing but the characters that
separate words.  In front of the flags for a format it is what is run, and its first word is what is
missed if the drawing program is not there.

* `wordsFrom_ne_nil`, `words?_eq_nil_iff` — the commands without words;
* `ofEnvironment_eq_ok` — where the words and the suffix of settings come from;
* `render_of_accepted`, `render_missing` — what is run, and what is missed;
* `CommandLaw`, `commandLaw_of_ofEnvironment` — every environment that has settings.
-/

namespace CallDiagram

/-! ## Commands without words -/

/-- Words behind others leave nothing only if there are none of either. -/
theorem map_append_eq_nil_iff {ε α : Type} {front : List α} {result : Except ε (List α)} :
    result.map (front ++ ·) = .ok [] ↔ front = [] ∧ result = .ok [] := by
  cases result with
  | error e => simp [Except.map]
  | ok rest => simp [Except.map]

/-- A word that is begun is left, however the command goes on. -/
theorem wordsFrom_ne_nil {quoting : Quoting} {word : Option Text} {text : Text}
    (h : word ≠ none) : wordsFrom quoting word text ≠ .ok [] := by
  fun_induction wordsFrom quoting word text with
  | case1 word => cases word <;> simp_all
  | case2 => simp
  | case3 => simp
  | case4 word c rest hgap ih =>
    -- the gap ends the word, which stays in front
    intro hnil
    obtain ⟨hfront, -⟩ := map_append_eq_nil_iff.1 hnil
    cases word <;> simp_all
  | case5 word rest hgap ih => exact ih h
  | case6 word c rest hgap hescape hquote ih => exact ih (by simp [extend])
  | case7 word c rest hgap hescape hquote ih => exact ih (by simp [extend])
  | case8 word q rest ih => exact ih h
  | case9 q word c rest hend hescape ih => exact ih h
  | case10 q word c rest hend hescape ih => exact ih (by simp [extend])
  | case11 word c rest ih => exact ih (by simp [extend])
  | case12 q word c rest ih => exact ih (by simp [extend])

/-- Only gaps leave no word, because everything else begins one. -/
theorem words?_eq_nil_iff {command : Text} :
    words? command = .ok [] ↔ ∀ c ∈ command, isWordGap c = true := by
  rw [words?]
  induction command with
  | nil => simp [wordsFrom]
  | cons c rest ih =>
    by_cases hgap : isWordGap c = true
    · rw [wordsFrom, if_pos hgap, map_append_eq_nil_iff, ih]
      simp [hgap]
    · have hleft : wordsFrom .plain none (c :: rest) ≠ .ok [] := by
        rw [wordsFrom, if_neg hgap]
        split
        · cases rest with
          | nil => simp [wordsFrom]
          | cons d rest =>
            rw [wordsFrom]
            exact wordsFrom_ne_nil (by simp [extend])
        · split
          · exact wordsFrom_ne_nil (by simp [extend])
          · exact wordsFrom_ne_nil (by simp [extend])
      refine iff_of_false hleft ?_
      intro hall
      exact hgap (hall c List.mem_cons_self)

/-! ## The words of an environment -/

/-- The command of accepted settings is cut from the variable, or it is the usual one, and the
suffix starts with a dot. -/
theorem ofEnvironment_eq_ok {env : Environment} {settings : Settings}
    (h : Settings.ofEnvironment env = .ok settings) :
    (match Text.nonempty? (env.lookup Settings.commandVariable) with
      | some text => words? text = .ok settings.command
      | none => settings.command = ["plantuml"]) ∧
      settings.suffix
        = Settings.dotted ((env.lookup Settings.suffixVariable).getD ({} : Settings).suffix) := by
  have hread := ofEnvironment_eq_ok_iff.1 h
  have hcommand := hread.command
  refine ⟨?_, hread.suffix⟩
  rw [Settings.readCommand] at hcommand
  cases htext : Text.nonempty? (env.lookup Settings.commandVariable) with
  | none =>
    rw [htext] at hcommand
    exact (Except.ok.inj hcommand).symm
  | some text =>
    rw [htext] at hcommand
    exact mapError_eq_ok_iff.1 hcommand

/-! ## What is run -/

section Render

variable {settings : Settings} {requested : Option Text} {f : Format}
  (h : Format.read ((Text.nonempty? requested).getD settings.format.name) = .ok f)
  (launch : Launch) (source : Option Text) (document : Text)

include h

/-- One attempt is made, with the words of the command in front of the flags for the format. -/
theorem render_of_accepted (renderer : Renderer) :
    ∃ input, (render settings renderer launch requested source document).1
      = [⟨settings.drawing f, input⟩] := by
  rw [render, Settings.drawingAs, h]
  cases renderer with
  | missing => exact ⟨_, rfl⟩
  | present respond => exact ⟨_, rfl⟩

/-- If there is no drawing program, the first word of what is run is missed. -/
theorem render_missing :
    (render settings .missing launch requested source document).2
      = .error (.failed ⟨.notFound ((settings.drawing f).headD []), source⟩) := by
  rw [render, Settings.drawingAs, h]
  rfl

end Render

/-! ## The law -/

/-- What is run for the settings of an environment. -/
structure CommandLaw (env : Environment) (settings : Settings) : Prop where
  /-- The command is what the variable is cut into, or the usual one. -/
  words : match Text.nonempty? (env.lookup Settings.commandVariable) with
    | some text => words? text = .ok settings.command
    | none => settings.command = ["plantuml"]
  /-- It has a word, unless the variable holds gaps and nothing else. -/
  empty : settings.command = [] ↔
    ∃ text, Text.nonempty? (env.lookup Settings.commandVariable) = some text ∧
      ∀ c ∈ text, isWordGap c = true
  /-- Four words follow it for every format that is known. -/
  drawing : ∀ {format : Text} {f : Format}, Format.read format = .ok f →
    settings.drawingAs format = .ok (settings.command
      ++ [("-t" : Text) ++ Format.normalise format, "-pipe", "-charset", "UTF-8"])
  /-- This is what is run for a document, and nothing else. -/
  run : ∀ {requested : Option Text} {f : Format},
    Format.read ((Text.nonempty? requested).getD settings.format.name) = .ok f →
    ∀ (renderer : Renderer) (launch : Launch) (source : Option Text) (document : Text),
      ∃ input, (render settings renderer launch requested source document).1
        = [⟨settings.drawing f, input⟩]
  /-- If there is no drawing program, the first word of the command is missed. -/
  missing : ∀ {requested : Option Text} {f : Format},
    Format.read ((Text.nonempty? requested).getD settings.format.name) = .ok f →
    ∀ {first : Text} {rest : List Text}, settings.command = first :: rest →
    ∀ (launch : Launch) (source : Option Text) (document : Text),
      (render settings .missing launch requested source document).2
        = .error (.failed ⟨.notFound first, source⟩)
  /-- If the command has no word, the flag of the format is missed in its place. -/
  flag : ∀ {requested : Option Text} {f : Format},
    Format.read ((Text.nonempty? requested).getD settings.format.name) = .ok f →
    settings.command = [] →
    ∀ (launch : Launch) (source : Option Text) (document : Text),
      (render settings .missing launch requested source document).2
        = .error (.failed ⟨.notFound (("-t" : Text) ++ f.name), source⟩)

theorem commandLaw_of_ofEnvironment {env : Environment} {settings : Settings}
    (h : Settings.ofEnvironment env = .ok settings) : CommandLaw env settings := by
  obtain ⟨hwords, -⟩ := ofEnvironment_eq_ok h
  refine ⟨hwords, ?empty, ?drawing, ?run, ?missing, ?flag⟩
  case empty =>
    cases hcommand : Text.nonempty? (env.lookup Settings.commandVariable) with
    | none =>
      rw [hcommand] at hwords
      have husual : settings.command = ["plantuml"] := hwords
      simp [husual]
    | some text =>
      rw [hcommand] at hwords
      have hcut : words? text = .ok settings.command := hwords
      constructor
      · intro hnil
        rw [hnil] at hcut
        exact ⟨text, rfl, words?_eq_nil_iff.1 hcut⟩
      · rintro ⟨text', heq, hgaps⟩
        obtain rfl := Option.some.inj heq
        exact Except.ok.inj (hcut.symm.trans (words?_eq_nil_iff.2 hgaps))
  case drawing =>
    intro format f hread
    rw [Settings.drawingAs, hread, ← Format.name_of_read hread]
    rfl
  case run =>
    intro requested f hread renderer launch source document
    exact render_of_accepted hread launch source document renderer
  case missing =>
    intro requested f hread first rest hcommand launch source document
    rw [render_missing hread, Settings.drawing, hcommand]
    rfl
  case flag =>
    intro requested f hread hcommand launch source document
    rw [render_missing hread, Settings.drawing, hcommand]
    rfl

/-- A command with a quoted word, and a format in other letters. -/
theorem commandLaw_quotedWord :
    ∃ settings, Settings.ofEnvironment [(Settings.commandVariable, "java -jar '/opt/plant uml.jar'"),
        (Settings.formatVariable, ".PNG")] = .ok settings ∧
      settings.command = ["java", "-jar", "/opt/plant uml.jar"] ∧
      CommandLaw [(Settings.commandVariable, "java -jar '/opt/plant uml.jar'"),
        (Settings.formatVariable, ".PNG")] settings := by
  have h : Settings.ofEnvironment [(Settings.commandVariable, "java -jar '/opt/plant uml.jar'"),
      (Settings.formatVariable, ".PNG")]
        = .ok { command := ["java", "-jar", "/opt/plant uml.jar"], format := .png } := by rfl
  exact ⟨_, h, rfl, commandLaw_of_ofEnvironment h⟩

/-- A blank may be set for the command, and then a flag is taken for the drawing program. -/
theorem not_named_blankCommand :
    Settings.ofEnvironment [(Settings.commandVariable, " ")] = .ok { command := [] } ∧
      ({ command := [] } : Settings).drawingAs "svg"
        = .ok ["-tsvg", "-pipe", "-charset", "UTF-8"] ∧
      ∀ document : Text, (render { command := [] } .missing .single none none document).2
        = .error (.failed ⟨.notFound "-tsvg", none⟩) :=
  ⟨by rfl, by rfl, fun _ => by rfl⟩

end CallDiagram
