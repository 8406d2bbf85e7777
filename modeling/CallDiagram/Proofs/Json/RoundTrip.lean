import CallDiagram.Proofs.Json.Numbers
import CallDiagram.Proofs.Json.Strings

/-!
# Reading values that were written

A value of whole numbers and of objects that bind each key once is read back from every layout that
only adds blanks and escapes, unless a number in it has too many digits.

* `Plain`, `isWritable` — the values;
* `Style.Faithful` — the layouts, `faithful_compact`, `faithful_indented`;
* `value_write`, `elements_write`, `members_write` — a value in front of anything, by recursion on
  the fuel of the reader;
* `read_write` — a whole text.
-/

namespace CallDiagram.Json

/-! ## Values and layouts -/

mutual

/-- A value of whole numbers and of objects that bind each key once. -/
def Plain : Json → Prop
  | .real _ => False
  | .list items => PlainItems items
  | .object fields => (fields.map Prod.fst).Nodup ∧ PlainFields fields
  | _ => True

/-- Such values as the items of a list. -/
def PlainItems : List Json → Prop
  | [] => True
  | item :: items => Plain item ∧ PlainItems items

/-- Such values in the fields of an object. -/
def PlainFields : List (Text × Json) → Prop
  | [] => True
  | (_, value) :: fields => Plain value ∧ PlainFields fields

end

mutual

/-- Whether every whole number in a value has few enough digits. -/
def isWritable : Json → Bool
  | .int n => Number.isWritable n
  | .list items => isWritableItems items
  | .object fields => isWritableFields fields
  | _ => true

/-- Whether every whole number in the items of a list has few enough digits. -/
def isWritableItems : List Json → Bool
  | [] => true
  | item :: items => isWritable item && isWritableItems items

/-- Whether every whole number in the fields of an object has few enough digits. -/
def isWritableFields : List (Text × Json) → Bool
  | [] => true
  | (_, value) :: fields => isWritable value && isWritableFields fields

end

/-- A layout that only adds blanks and escapes. -/
structure Style.Faithful (style : Style) : Prop where
  escape : ∀ c, ReadsAs c (style.escape c)
  lead : ∀ level, ∀ c ∈ style.lead level, isSpace c = true
  colon : ∃ blanks, style.colon = ':' :: blanks ∧ ∀ c ∈ blanks, isSpace c = true

theorem faithful_compact : Style.compact.Faithful :=
  ⟨readsAs_plainEscape, by simp [Style.compact], [], rfl, by simp⟩

theorem faithful_indented : Style.indented.Faithful := by
  refine ⟨readsAs_asciiEscape, fun level c hc => ?_, [' '], rfl, by simp [isSpace]⟩
  rcases List.mem_cons.1 hc with rfl | hc
  · rfl
  · obtain rfl := List.eq_of_mem_replicate hc
    rfl

/-! ## Blanks -/

theorem skip_append {blanks : Text} (h : ∀ c ∈ blanks, isSpace c = true) (rest : Text) :
    skip (blanks ++ rest) = skip rest := List.dropWhile_append_of_pos h

theorem skip_cons {c : Char} (h : isSpace c = false) (rest : Text) :
    skip (c :: rest) = c :: rest := by
  simp [skip, h]

/-- A blank or a mark ends a number. -/
theorem endsNumber_append {blanks : Text} (h : ∀ c ∈ blanks, isSpace c = true) {c : Char}
    (hc : c = ',' ∨ c = ']' ∨ c = '}') (rest : Text) : EndsNumber (blanks ++ c :: rest) := by
  intro d hd
  have hcase : isSpace d = true ∨ d = ',' ∨ d = ']' ∨ d = '}' := by
    cases blanks with
    | nil =>
      obtain rfl : c = d := by simpa using hd
      exact Or.inr hc
    | cons b blanks =>
      obtain rfl : b = d := by simpa using hd
      exact Or.inl (h b List.mem_cons_self)
  have hspace : d = ' ' ∨ d = '\t' ∨ d = '\n' ∨ d = '\r' ∨ d = ',' ∨ d = ']' ∨ d = '}' := by
    simpa [isSpace, or_assoc] using hcase
  rcases hspace with rfl | rfl | rfl | rfl | rfl | rfl | rfl <;> decide

/-- A value starts with a mark, a letter, a digit or a sign. -/
theorem exists_write_eq_cons (style : Style) (level : Nat) {v : Json} (h : Plain v) :
    ∃ c more, write style level v = c :: more ∧ isSpace c = false ∧ c ≠ ']' ∧ c ≠ '\uFEFF' := by
  cases v with
  | null => exact ⟨'n', _, rfl, by decide, by decide, by decide⟩
  | bool b => cases b <;> exact ⟨_, _, rfl, by decide, by decide, by decide⟩
  | int n =>
    obtain ⟨c, more, heq, hc⟩ := exists_integer_eq_cons n
    refine ⟨c, more, heq, ?_, ?_, ?_⟩
    · rw [Bool.eq_false_iff]
      intro hspace
      have hblank : c = ' ' ∨ c = '\t' ∨ c = '\n' ∨ c = '\r' := by
        simpa [isSpace, or_assoc] using hspace
      rcases hblank with rfl | rfl | rfl | rfl <;> simp at hc
    · rintro rfl
      simp at hc
    · rintro rfl
      simp at hc
  | real x => exact absurd h id
  | str s => exact ⟨'"', _, rfl, by decide, by decide, by decide⟩
  | list items => cases items <;> exact ⟨'[', _, rfl, by decide, by decide, by decide⟩
  | object fields =>
    cases fields with
    | nil => exact ⟨'{', _, rfl, by decide, by decide, by decide⟩
    | cons f fields => exact ⟨'{', _, rfl, by decide, by decide, by decide⟩

theorem skip_write {style : Style} (level : Nat) {v : Json} (h : Plain v) (rest : Text) :
    skip (write style level v ++ rest) = write style level v ++ rest := by
  obtain ⟨c, more, heq, hc, -⟩ := exists_write_eq_cons style level h
  rw [heq, List.cons_append, skip_cons hc]

/-! ## Results -/

theorem eq_ok_of_toOption {ε α : Type} {x : Except ε α} {a : α} (h : x.toOption = some a) :
    x = .ok a := by
  cases x with
  | error e => simp [Except.toOption] at h
  | ok b => simpa [Except.toOption] using h

theorem toOption_map {ε α β : Type} (f : α → β) (x : Except ε α) :
    (x.map f).toOption = x.toOption.map f := by
  cases x <;> rfl

theorem exists_error_of_toOption {ε α : Type} {x : Except ε α} (h : x.toOption = none) :
    ∃ e, x = .error e := by
  cases x with
  | error e => exact ⟨e, rfl⟩
  | ok b => simp [Except.toOption] at h

/-! ## Parts of values -/

section Parts

variable {style : Style} (hstyle : style.Faithful)

include hstyle

/-- The text of a key or of a value that is a text. -/
theorem string_writeText (s rest : Text) :
    ∃ inside, writeText style s ++ rest = '"' :: inside ∧ string inside = .ok (s, rest) := by
  refine ⟨s.flatMap style.escape ++ '"' :: rest, ?_, string_flatMap hstyle.escape s rest⟩
  simp [writeText]

/-- What follows an item ends a number. -/
theorem endsNumber_writeItems (level : Nat) (items : List Json) (rest : Text) :
    EndsNumber (writeItems style level items ++ rest) := by
  cases items with
  | nil =>
    rw [writeItems, List.append_assoc]
    exact endsNumber_append (hstyle.lead level) (by simp) rest
  | cons item items => exact endsNumber_append (List.forall_mem_nil _) (by simp) _

theorem endsNumber_writeFields (level : Nat) (fields : List (Text × Json)) (rest : Text) :
    EndsNumber (writeFields style level fields ++ rest) := by
  cases fields with
  | nil =>
    rw [writeFields, List.append_assoc]
    exact endsNumber_append (hstyle.lead level) (by simp) rest
  | cons f fields => exact endsNumber_append (List.forall_mem_nil _) (by simp) _

end Parts

theorem put_append {key : Text} {value : Json} {fields : List (Text × Json)}
    (h : key ∉ fields.map Prod.fst) : put key value fields = fields ++ [(key, value)] := by
  induction fields with
  | nil => rfl
  | cons f fields ih =>
    obtain ⟨k, v⟩ := f
    obtain ⟨hk, hrest⟩ : key ≠ k ∧ key ∉ fields.map Prod.fst := by simpa using h
    rw [put, if_neg (Ne.symm hk), ih hrest, List.cons_append]

/-! ## Steps of the readers -/

section Steps

variable {fuel : Nat} {text rest tail : Text} {v : Json}

theorem value_number {c : Char} (hc : c.isDigit = true ∨ c = '-') :
    value (fuel + 1) (c :: text) = scalar (c :: text) := by
  have hne : c ≠ '"' ∧ c ≠ '{' ∧ c ≠ '[' := by
    refine ⟨?_, ?_, ?_⟩ <;> rintro rfl <;> simp at hc
  rw [value]
  all_goals simp_all

theorem value_list (h : (skip text).head? ≠ some ']') :
    value (fuel + 1) ('[' :: text)
      = (elements fuel (skip text)).map fun r => (.list r.1, r.2) := by
  rw [value]
  split
  · rename_i heq
    simp [heq] at h
  · rfl

theorem value_object (h : (skip text).head? ≠ some '}') :
    value (fuel + 1) ('{' :: text)
      = (members fuel [] (skip text)).map fun r => (.object r.1, r.2) := by
  rw [value]
  split
  · rename_i heq
    simp [heq] at h
  · rfl

theorem elements_error {e : Fault} (h : value fuel text = .error e) :
    elements (fuel + 1) text = .error e := by
  rw [elements, h]
  rfl

theorem elements_last (h : value fuel text = .ok (v, rest)) (hrest : skip rest = ']' :: tail) :
    elements (fuel + 1) text = .ok ([v], tail) := by
  rw [elements, h]
  simp only [bind, Except.bind]
  rw [hrest]
  rfl

theorem elements_more (h : value fuel text = .ok (v, rest)) (hrest : skip rest = ',' :: tail) :
    elements (fuel + 1) text = (elements fuel (skip tail)).map fun r => (v :: r.1, r.2) := by
  rw [elements, h]
  simp only [bind, Except.bind]
  rw [hrest]
  rfl

variable {front : List (Text × Json)} {key inside behind colon : Text}

theorem members_error (hkey : string inside = .ok (key, behind))
    (hcolon : skip behind = ':' :: colon) {e : Fault} (h : value fuel (skip colon) = .error e) :
    members (fuel + 1) front ('"' :: inside) = .error e := by
  rw [members, hkey]
  simp only [bind, Except.bind]
  rw [hcolon]
  simp only [h]

theorem members_last (hkey : string inside = .ok (key, behind))
    (hcolon : skip behind = ':' :: colon) (h : value fuel (skip colon) = .ok (v, rest))
    (hrest : skip rest = '}' :: tail) :
    members (fuel + 1) front ('"' :: inside) = .ok (put key v front, tail) := by
  rw [members, hkey]
  simp only [bind, Except.bind]
  rw [hcolon]
  simp only [h]
  rw [hrest]
  rfl

theorem members_more (hkey : string inside = .ok (key, behind))
    (hcolon : skip behind = ':' :: colon) (h : value fuel (skip colon) = .ok (v, rest))
    (hrest : skip rest = ',' :: tail) :
    members (fuel + 1) front ('"' :: inside) = members fuel (put key v front) (skip tail) := by
  rw [members, hkey]
  simp only [bind, Except.bind]
  rw [hcolon]
  simp only [h]
  rw [hrest]
  rfl

end Steps

/-! ## Whole values -/

mutual

/-- A value is read back in front of anything that does not go on with it, unless a number in it has
too many digits. -/
theorem value_write {style : Style} (hstyle : style.Faithful) (level : Nat) {v : Json}
    (h : Plain v) {fuel : Nat} {rest : Text} (hfuel : (write style level v).length ≤ fuel)
    (hrest : EndsNumber rest) :
    (value fuel (write style level v ++ rest)).toOption
      = if isWritable v then some (v, rest) else none := by
  obtain ⟨fuel, rfl⟩ : ∃ f, fuel = f + 1 := by
    obtain ⟨c, more, heq, -⟩ := exists_write_eq_cons style level h
    rw [heq, List.length_cons] at hfuel
    exact ⟨fuel - 1, by omega⟩
  cases v with
  | null => rfl
  | bool b => cases b <;> rfl
  | int n =>
    obtain ⟨c, more, heq, hc⟩ := exists_integer_eq_cons n
    have hscalar : value (fuel + 1) (Text.integer n ++ rest) = scalar (Text.integer n ++ rest) := by
      rw [heq, List.cons_append, value_number hc]
    rw [write, hscalar, scalar_integer n hrest]
    rfl
  | real x => exact absurd h id
  | str s =>
    obtain ⟨inside, heq, hread⟩ := string_writeText hstyle s rest
    rw [write, heq, value, hread]
    rfl
  | list items =>
    cases items with
    | nil => rfl
    | cons item items =>
      obtain ⟨hitem, hitems⟩ := h
      have hskip : skip (style.lead (level + 1) ++ (write style (level + 1) item
            ++ (writeItems style level items ++ rest)))
          = write style (level + 1) item ++ (writeItems style level items ++ rest) := by
        rw [skip_append (hstyle.lead _), skip_write (level + 1) hitem]
      have hhead : (write style (level + 1) item
          ++ (writeItems style level items ++ rest)).head? ≠ some ']' := by
        obtain ⟨c, more, heq, -, hc, -⟩ := exists_write_eq_cons style (level + 1) hitem
        rw [heq]
        simpa using hc
      rw [write, List.length_cons, List.length_append, List.length_append] at hfuel
      have hroom : (write style (level + 1) item).length + (writeItems style level items).length
          ≤ fuel := by omega
      have hread := elements_write hstyle level hitem hitems hroom rest
      rw [write]
      simp only [List.cons_append, List.append_assoc]
      rw [value_list (by rwa [hskip]), hskip, toOption_map, hread, isWritable, isWritableItems]
      split <;> rfl
  | object fields =>
    cases fields with
    | nil => rfl
    | cons f fields =>
      obtain ⟨key, v⟩ := f
      obtain ⟨hkeys, hv, hfields⟩ := h
      have hskip : skip (style.lead (level + 1) ++ (writeText style key ++ (style.colon
            ++ (write style (level + 1) v ++ (writeFields style level fields ++ rest)))))
          = writeText style key ++ (style.colon
            ++ (write style (level + 1) v ++ (writeFields style level fields ++ rest))) := by
        rw [skip_append (hstyle.lead _), writeText, List.cons_append, skip_cons rfl]
      rw [write, List.length_cons] at hfuel
      simp only [List.length_append] at hfuel
      have hroom : (write style (level + 1) v).length + (writeFields style level fields).length
          ≤ fuel := by omega
      have hnone : (([] ++ (key, v) :: fields : List (Text × Json)).map Prod.fst).Nodup := hkeys
      have hread := members_write hstyle level hv hfields hnone hroom rest
      rw [write]
      simp only [List.cons_append, List.append_assoc]
      rw [value_object (by rw [hskip, writeText]; simp), hskip, toOption_map, hread, isWritable,
        isWritableFields]
      split <;> rfl
termination_by fuel

/-- The items of a list are read back. -/
theorem elements_write {style : Style} (hstyle : style.Faithful) (level : Nat) {item : Json}
    {items : List Json} (h : Plain item) (hitems : PlainItems items) {fuel : Nat}
    (hfuel : (write style (level + 1) item).length + (writeItems style level items).length ≤ fuel)
    (rest : Text) :
    (elements fuel
        (write style (level + 1) item ++ (writeItems style level items ++ rest))).toOption
      = if isWritable item && isWritableItems items then some (item :: items, rest) else none := by
  have hmark : 0 < (writeItems style level items).length := by
    cases items <;> simp [writeItems]
  obtain ⟨fuel, rfl⟩ : ∃ f, fuel = f + 1 := ⟨fuel - 1, by omega⟩
  have hshort : (write style (level + 1) item).length ≤ fuel := by omega
  have hread := value_write hstyle (level + 1) h hshort
    (endsNumber_writeItems hstyle level items rest)
  cases hw : isWritable item with
  | false =>
    rw [hw] at hread
    obtain ⟨e, he⟩ := exists_error_of_toOption hread
    rw [elements_error he]
    rfl
  | true =>
    rw [hw] at hread
    have hitem := eq_ok_of_toOption hread
    cases items with
    | nil =>
      have hskip : skip (writeItems style level [] ++ rest) = ']' :: rest := by
        rw [writeItems, List.append_assoc, skip_append (hstyle.lead level)]
        exact skip_cons rfl rest
      rw [elements_last hitem hskip]
      rfl
    | cons next items =>
      obtain ⟨hnext, hitems⟩ := hitems
      have hskip : skip (writeItems style level (next :: items) ++ rest)
          = ',' :: (style.lead (level + 1)
            ++ (write style (level + 1) next ++ (writeItems style level items ++ rest))) := by
        rw [writeItems, List.cons_append, skip_cons rfl]
        simp only [List.append_assoc]
      rw [writeItems, List.length_cons, List.length_append, List.length_append] at hfuel
      have hroom : (write style (level + 1) next).length + (writeItems style level items).length
          ≤ fuel := by omega
      have hothers := elements_write hstyle level hnext hitems hroom rest
      rw [elements_more hitem hskip, skip_append (hstyle.lead _), skip_write (level + 1) hnext,
        toOption_map, hothers, isWritableItems, Bool.true_and]
      split <;> rfl
termination_by fuel

/-- The fields of an object are read back behind those that were read before. -/
theorem members_write {style : Style} (hstyle : style.Faithful) (level : Nat) {key : Text}
    {v : Json} {fields front : List (Text × Json)} (h : Plain v) (hfields : PlainFields fields)
    (hkeys : ((front ++ (key, v) :: fields).map Prod.fst).Nodup) {fuel : Nat}
    (hfuel : (write style (level + 1) v).length + (writeFields style level fields).length ≤ fuel)
    (rest : Text) :
    (members fuel front (writeText style key ++ (style.colon
        ++ (write style (level + 1) v ++ (writeFields style level fields ++ rest))))).toOption
      = if isWritable v && isWritableFields fields then some (front ++ (key, v) :: fields, rest)
        else none := by
  have hmark : 0 < (writeFields style level fields).length := by
    cases fields <;> simp [writeFields]
  obtain ⟨fuel, rfl⟩ : ∃ f, fuel = f + 1 := ⟨fuel - 1, by omega⟩
  obtain ⟨inside, hinside, hkey⟩ := string_writeText hstyle key (style.colon
    ++ (write style (level + 1) v ++ (writeFields style level fields ++ rest)))
  obtain ⟨blanks, hcolon, hblanks⟩ := hstyle.colon
  have hskipColon : skip (style.colon
        ++ (write style (level + 1) v ++ (writeFields style level fields ++ rest)))
      = ':' :: (blanks
          ++ (write style (level + 1) v ++ (writeFields style level fields ++ rest))) := by
    rw [hcolon, List.cons_append, skip_cons rfl]
  have hskipValue : skip (blanks ++ (write style (level + 1) v
        ++ (writeFields style level fields ++ rest)))
      = write style (level + 1) v ++ (writeFields style level fields ++ rest) := by
    rw [skip_append hblanks, skip_write (level + 1) h]
  have hshort : (write style (level + 1) v).length ≤ fuel := by omega
  have hread := value_write hstyle (level + 1) h hshort
    (endsNumber_writeFields hstyle level fields rest)
  have hput : put key v front = front ++ [(key, v)] := by
    apply put_append
    rw [List.map_append, List.nodup_append] at hkeys
    intro hmem
    exact hkeys.2.2 key hmem key List.mem_cons_self rfl
  rw [hinside]
  cases hw : isWritable v with
  | false =>
    rw [hw, ← hskipValue] at hread
    obtain ⟨e, he⟩ := exists_error_of_toOption hread
    rw [members_error hkey hskipColon he]
    rfl
  | true =>
    rw [hw, ← hskipValue] at hread
    have hvalue := eq_ok_of_toOption hread
    cases fields with
    | nil =>
      have hskip : skip (writeFields style level [] ++ rest) = '}' :: rest := by
        rw [writeFields, List.append_assoc, skip_append (hstyle.lead level)]
        exact skip_cons rfl rest
      rw [members_last hkey hskipColon hvalue hskip, hput]
      rfl
    | cons next fields =>
      obtain ⟨nextKey, nextValue⟩ := next
      obtain ⟨hnext, hfields⟩ := hfields
      have hskip : skip (writeFields style level ((nextKey, nextValue) :: fields) ++ rest)
          = ',' :: (style.lead (level + 1) ++ (writeText style nextKey ++ (style.colon
            ++ (write style (level + 1) nextValue
              ++ (writeFields style level fields ++ rest))))) := by
        rw [writeFields, List.cons_append, skip_cons rfl]
        simp only [List.append_assoc]
      rw [writeFields, List.length_cons] at hfuel
      simp only [List.length_append] at hfuel
      have hroom : (write style (level + 1) nextValue).length
          + (writeFields style level fields).length ≤ fuel := by omega
      have hnextKeys : (((front ++ [(key, v)]) ++ (nextKey, nextValue) :: fields).map
          Prod.fst).Nodup := by
        rwa [List.append_assoc]
      have hothers := members_write hstyle level hnext hfields hnextKeys hroom rest
      rw [members_more hkey hskipColon hvalue hskip, hput, skip_append (hstyle.lead _), writeText,
        List.cons_append, skip_cons rfl, ← List.cons_append, ← writeText, hothers, isWritableFields,
        Bool.true_and, List.append_assoc]
      rfl
termination_by fuel

end

/-- A value in a text with blanks behind it is read back, unless a number in it has too many
digits. -/
theorem read_write {style : Style} (hstyle : style.Faithful) {v : Json} (h : Plain v)
    {blanks : Text} (hblanks : ∀ c ∈ blanks, isSpace c = true) :
    (read (write style 0 v ++ blanks)).toOption = if isWritable v then some v else none := by
  obtain ⟨c, more, heq, -, -, hmark⟩ := exists_write_eq_cons style 0 h
  have hends : EndsNumber blanks := by
    intro c hc
    have hspace := hblanks c (List.mem_of_mem_head? hc)
    have hblank : c = ' ' ∨ c = '\t' ∨ c = '\n' ∨ c = '\r' := by
      simpa [isSpace, or_assoc] using hspace
    rcases hblank with rfl | rfl | rfl | rfl <;> decide
  have hlength : (write style 0 v).length ≤ 2 * ((write style 0 v ++ blanks).length + 1) := by
    rw [List.length_append]
    omega
  have hvalue := value_write hstyle 0 h hlength hends
  have hread : read (write style 0 v ++ blanks)
      = (whole (write style 0 v ++ blanks)).mapError
          (Fault.inText (write style 0 v ++ blanks)) := by
    rw [heq, List.cons_append, read]
    intro rest hcons
    exact hmark (List.cons.inj hcons).1
  rw [hread, whole, skip_write 0 h]
  cases hw : isWritable v with
  | false =>
    rw [hw] at hvalue
    obtain ⟨e, he⟩ := exists_error_of_toOption hvalue
    rw [he]
    rfl
  | true =>
    rw [hw] at hvalue
    have hend : skip blanks = [] := by
      have hskip := skip_append hblanks []
      rwa [List.append_nil] at hskip
    rw [eq_ok_of_toOption hvalue]
    simp only [bind, Except.bind]
    rw [hend]
    rfl

end CallDiagram.Json
