import Mathlib.Data.List.Sort

/-!
# JSON values

The values a program hands to `JSON.stringify`: a tree of nulls, Booleans,
numbers, texts, arrays and objects. An object is its list of properties in
property order. Numbers are a parameter `ν`, since no operation here computes with
them.
-/

/-- **JSON values** with numbers in `ν`. -/
inductive Json (ν : Type) where
  | null
  | bool (b : Bool)
  | num (n : ν)
  | str (s : String)
  | arr (items : List (Json ν))
  | obj (props : List (String × Json ν))

namespace Json

/-- One character inside a quoted text. -/
def quoteChar (c : Char) : List Char :=
  if c = '"' then ['\\', '"']
  else if c = '\\' then ['\\', '\\']
  else if c = '\n' then ['\\', 'n']
  else if c = '\r' then ['\\', 'r']
  else if c = '\t' then ['\\', 't']
  else if c.toNat = 8 then ['\\', 'b']
  else if c.toNat = 12 then ['\\', 'f']
  else if c.toNat < 32 then
    ['\\', 'u', '0', '0', Nat.digitChar (c.toNat / 16), Nat.digitChar (c.toNat % 16)]
  else [c]

/-- `JSON.stringify` of a text. -/
def quote (s : String) : String := String.ofList ('"' :: s.toList.flatMap quoteChar ++ ['"'])

variable {ν : Type}

mutual

/-- The text of a value with the properties of every object sorted by `le`. -/
def canonical (numText : ν → String) (le : String → String → Bool) : Json ν → String
  | .null => "null"
  | .bool b => toString b
  | .num n => numText n
  | .str s => quote s
  | .arr items => "[" ++ String.intercalate "," (canonicalItems numText le items) ++ "]"
  | .obj props =>
    let sorted := (canonicalProps numText le props).insertionSort fun a b => le a.1 b.1 = true
    "\x7b" ++ String.intercalate "," (sorted.map fun p => quote p.1 ++ ":" ++ p.2) ++ "\x7d"
termination_by structural j => j

/-- The texts of the items of an array. -/
def canonicalItems (numText : ν → String) (le : String → String → Bool) :
    List (Json ν) → List String
  | [] => []
  | j :: js => canonical numText le j :: canonicalItems numText le js
termination_by structural js => js

/-- The keys of an object with the texts of their values. -/
def canonicalProps (numText : ν → String) (le : String → String → Bool) :
    List (String × Json ν) → List (String × String)
  | [] => []
  | (k, v) :: props => (k, canonical numText le v) :: canonicalProps numText le props
termination_by structural props => props

end

/-! ### Quoted texts -/

/-- The value of a hexadecimal digit. -/
def hexValue (c : Char) : Nat := if c.isDigit then c.toNat - 48 else c.toNat - 87

/-- Reading the first character of the inside of a quoted text. -/
def unquoteChar : List Char → Option (Char × List Char)
  | [] => none
  | '\\' :: 'n' :: rest => some ('\n', rest)
  | '\\' :: 'r' :: rest => some ('\r', rest)
  | '\\' :: 't' :: rest => some ('\t', rest)
  | '\\' :: 'b' :: rest => some (Char.ofNat 8, rest)
  | '\\' :: 'f' :: rest => some (Char.ofNat 12, rest)
  | '\\' :: 'u' :: '0' :: '0' :: high :: low :: rest =>
    some (Char.ofNat (16 * hexValue high + hexValue low), rest)
  | '\\' :: c :: rest => some (c, rest)
  | c :: rest => some (c, rest)

theorem char_of_toNat_eq {c : Char} {n : Nat} (h : c.toNat = n) : c = Char.ofNat n := by
  rw [← h, Char.ofNat_toNat]

/-- The digits of a control character give it back. -/
theorem hexValue_digits {n : Nat} (h : n < 32) :
    16 * hexValue (Nat.digitChar (n / 16)) + hexValue (Nat.digitChar (n % 16)) = n := by
  revert n
  decide

theorem unquoteChar_quoteChar (c : Char) (rest : List Char) :
    unquoteChar (quoteChar c ++ rest) = some (c, rest) := by
  unfold quoteChar
  split_ifs with hquote hslash hn hr ht hb hf hcontrol
  · rw [hquote]
    rfl
  · rw [hslash]
    rfl
  · rw [hn]
    rfl
  · rw [hr]
    rfl
  · rw [ht]
    rfl
  · rw [char_of_toNat_eq hb]
    rfl
  · rw [char_of_toNat_eq hf]
    rfl
  · show some (Char.ofNat _, rest) = _
    rw [hexValue_digits hcontrol, Char.ofNat_toNat]
  · show unquoteChar (c :: rest) = _
    unfold unquoteChar
    split <;> simp_all

/-- The quoted form of a character does not begin with the quote that ends a text. -/
theorem quoteChar_ne_quote (c : Char) (rest : List Char) :
    ∃ d tail, quoteChar c ++ rest = d :: tail ∧ d ≠ '"' := by
  unfold quoteChar
  split_ifs with hquote
  all_goals exact ⟨_, _, rfl, by first | decide | exact hquote⟩

/-- The inside of a quoted text ends at its quote. -/
theorem quoted_unique {s t : List Char} {rest rest' : List Char}
    (h : s.flatMap quoteChar ++ '"' :: rest = t.flatMap quoteChar ++ '"' :: rest') :
    s = t ∧ rest = rest' := by
  induction s generalizing t with
  | nil =>
    cases t with
    | nil => exact ⟨rfl, (List.cons.inj h).2⟩
    | cons d t =>
      rw [List.flatMap_cons, List.append_assoc] at h
      obtain ⟨e, tail, heq, hne⟩ := quoteChar_ne_quote d (t.flatMap quoteChar ++ '"' :: rest')
      rw [heq] at h
      exact absurd (List.cons.inj h).1.symm hne
  | cons c s ih =>
    rw [List.flatMap_cons, List.append_assoc] at h
    cases t with
    | nil =>
      obtain ⟨e, tail, heq, hne⟩ := quoteChar_ne_quote c (s.flatMap quoteChar ++ '"' :: rest)
      rw [heq] at h
      exact absurd (List.cons.inj h).1 hne
    | cons d t =>
      rw [List.flatMap_cons, List.append_assoc] at h
      have hread := congrArg unquoteChar h
      rw [unquoteChar_quoteChar, unquoteChar_quoteChar] at hread
      obtain ⟨hchar, hrest⟩ := Prod.mk.inj (Option.some.inj hread)
      obtain ⟨htail, hend⟩ := ih hrest
      exact ⟨by rw [hchar, htail], hend⟩

theorem toList_quote (s : String) : (quote s).toList = '"' :: (s.toList.flatMap quoteChar ++ ['"']) := by
  rw [quote, String.toList_ofList]
  rfl

theorem quote_unique {s t : String} {rest rest' : List Char}
    (h : (quote s).toList ++ rest = (quote t).toList ++ rest') : s = t ∧ rest = rest' := by
  simp only [toList_quote, List.cons_append, List.append_assoc, List.nil_append, List.cons.injEq,
    true_and] at h
  obtain ⟨hs, hrest⟩ := quoted_unique h
  exact ⟨String.toList_inj.mp hs, hrest⟩

/-! ### Texts of values -/

variable {ν : Type}

/-- A character of a number's text. -/
def isNumberChar (c : Char) : Bool := c.isDigit || c = '-' || c = '+' || c = '.' || c = 'e'

/-- A character with which a number's text begins. -/
def isNumberStart (c : Char) : Bool := c.isDigit || c = '-'

/-- **Texts of numbers** consist of the characters of numbers and determine the number. -/
structure NumberText (numText : ν → String) : Prop where
  injective : Function.Injective numText
  start : ∀ n, ∃ c tail, (numText n).toList = c :: tail ∧ isNumberStart c = true
  chars : ∀ n, ∀ c ∈ (numText n).toList, isNumberChar c = true

theorem isDigit_of_mem_toString {n : Nat} {c : Char} (h : c ∈ (toString n).toList) :
    c.isDigit = true := by
  rw [Nat.toString_eq_repr, Nat.toList_repr] at h
  exact Nat.isDigit_of_mem_toDigits (by decide) (by decide) h

theorem numberText_toString : NumberText (toString : Nat → String) where
  injective n m h := by
    have hdigits : Nat.toDigits 10 n = Nat.toDigits 10 m := by
      rw [← Nat.toList_repr, ← Nat.toList_repr, ← Nat.toString_eq_repr, ← Nat.toString_eq_repr, h]
    rw [← @Nat.ofDigitChars_ten_toDigits n, hdigits, Nat.ofDigitChars_ten_toDigits]
  start n := by
    have hne : (toString n).toList ≠ [] := by
      rw [Nat.toString_eq_repr, Nat.toList_repr]
      exact Nat.toDigits_ne_nil
    obtain ⟨c, tail, heq⟩ := List.exists_cons_of_ne_nil hne
    have hdigit := isDigit_of_mem_toString (heq ▸ List.mem_cons_self)
    exact ⟨c, tail, heq, by simp [isNumberStart, hdigit]⟩
  chars n c hc := by simp [isNumberChar, isDigit_of_mem_toString hc]

mutual

/-- The text of a value with the properties of every object in their order. -/
def render (numText : ν → String) : Json ν → List Char
  | .null => "null".toList
  | .bool b => (toString b).toList
  | .num n => (numText n).toList
  | .str s => (quote s).toList
  | .arr [] => ['[', ']']
  | .arr (j :: js) => '[' :: (render numText j ++ renderItems numText js)
  | .obj [] => ['\x7b', '\x7d']
  | .obj ((k, v) :: props) =>
    '\x7b' :: ((quote k).toList ++ (':' :: (render numText v ++ renderProps numText props)))
termination_by structural j => j

/-- The further items of an array, up to its closing bracket. -/
def renderItems (numText : ν → String) : List (Json ν) → List Char
  | [] => [']']
  | j :: js => ',' :: (render numText j ++ renderItems numText js)
termination_by structural js => js

/-- The further properties of an object, up to its closing brace. -/
def renderProps (numText : ν → String) : List (String × Json ν) → List Char
  | [] => ['\x7d']
  | (k, v) :: props =>
    ',' :: ((quote k).toList ++ (':' :: (render numText v ++ renderProps numText props)))
termination_by structural props => props

end

/-- Which kind of value a value is. -/
def kind : Json ν → Nat
  | .null => 0
  | .bool _ => 1
  | .num _ => 2
  | .str _ => 3
  | .arr _ => 4
  | .obj _ => 5

/-- The kind of value that begins with a character. -/
def kindOfChar (c : Char) : Nat :=
  if isNumberStart c then 2
  else if c = 'n' then 0
  else if c = '"' then 3
  else if c = '[' then 4
  else if c = '\x7b' then 5
  else 1

/-- What may follow a value. -/
def Closes (rest : List Char) : Prop := ∀ c ∈ rest.head?, isNumberChar c = false

variable {numText : ν → String} (hnum : NumberText numText)

theorem closes_renderItems (js : List (Json ν)) (rest : List Char) :
    Closes (renderItems numText js ++ rest) := by
  cases js <;> simp [renderItems, Closes, isNumberChar]

theorem closes_renderProps (props : List (String × Json ν)) (rest : List Char) :
    Closes (renderProps numText props ++ rest) := by
  cases props <;> simp [renderProps, Closes, isNumberChar]

include hnum in
/-- A value's kind shows in its first character. -/
theorem render_head (j : Json ν) :
    ∃ c tail, render numText j = c :: tail ∧ kindOfChar c = j.kind := by
  cases j with
  | null => exact ⟨'n', ['u', 'l', 'l'], rfl, rfl⟩
  | bool b =>
    cases b with
    | true => exact ⟨'t', ['r', 'u', 'e'], rfl, rfl⟩
    | false => exact ⟨'f', ['a', 'l', 's', 'e'], rfl, rfl⟩
  | num n =>
    obtain ⟨c, tail, heq, hstart⟩ := hnum.start n
    refine ⟨c, tail, heq, ?_⟩
    rw [kindOfChar, if_pos hstart]
    rfl
  | str s =>
    exact ⟨'"', s.toList.flatMap quoteChar ++ ['"'], toList_quote s, rfl⟩
  | arr items => cases items <;> exact ⟨'[', _, rfl, rfl⟩
  | obj props => cases props <;> exact ⟨'\x7b', _, rfl, rfl⟩

/-- The text of a number ends where something else begins. -/
theorem number_unique {s t rest rest' : List Char} (hs : ∀ c ∈ s, isNumberChar c = true)
    (ht : ∀ c ∈ t, isNumberChar c = true) (hrest : Closes rest) (hrest' : Closes rest')
    (h : s ++ rest = t ++ rest') : s = t ∧ rest = rest' := by
  have hend : ∀ {r : List Char}, Closes r → r.takeWhile isNumberChar = [] := by
    intro r hr
    cases r with
    | nil => rfl
    | cons c r =>
      have hc := hr c rfl
      simp [hc]
  have hread : ∀ {u r : List Char}, (∀ c ∈ u, isNumberChar c = true) → Closes r →
      (u ++ r).takeWhile isNumberChar = u := by
    intro u r hu hr
    rw [List.takeWhile_append_of_pos hu, hend hr, List.append_nil]
  have hst : s = t := by
    rw [← hread hs hrest, h, hread ht hrest']
  exact ⟨hst, List.append_cancel_left (hst ▸ h)⟩

/-- No text of another value begins as that of `j`, and none goes on as it. -/
def Readable (numText : ν → String) (j : Json ν) : Prop :=
  ∀ (j' : Json ν) {rest rest' : List Char}, Closes rest → Closes rest' →
    render numText j ++ rest = render numText j' ++ rest' → j = j' ∧ rest = rest'

def ReadableItems (numText : ν → String) (js : List (Json ν)) : Prop :=
  ∀ (js' : List (Json ν)) {rest rest' : List Char},
    renderItems numText js ++ rest = renderItems numText js' ++ rest' → js = js' ∧ rest = rest'

def ReadableProps (numText : ν → String) (props : List (String × Json ν)) : Prop :=
  ∀ (props' : List (String × Json ν)) {rest rest' : List Char},
    renderProps numText props ++ rest = renderProps numText props' ++ rest' →
      props = props' ∧ rest = rest'

include hnum in
theorem kind_eq {j j' : Json ν} {rest rest' : List Char}
    (h : render numText j ++ rest = render numText j' ++ rest') : j.kind = j'.kind := by
  obtain ⟨c, tail, heq, hc⟩ := render_head hnum j
  obtain ⟨c', tail', heq', hc'⟩ := render_head hnum j'
  rw [heq, heq'] at h
  rw [← hc, ← hc', (List.cons.inj h).1]

/-- A closing bracket is not where an item begins. -/
theorem render_ne_bracket (hnum : NumberText numText) (j : Json ν) {rest rest' : List Char} :
    render numText j ++ rest ≠ ']' :: rest' := by
  obtain ⟨c, tail, heq, hc⟩ := render_head hnum j
  intro h
  rw [heq] at h
  rw [(List.cons.inj h).1] at hc
  cases j with
  | bool b =>
    cases b with
    | true => exact absurd (List.cons.inj (heq : ['t', 'r', 'u', 'e'] = c :: tail)).1 (by
        rw [(List.cons.inj h).1]
        decide)
    | false => exact absurd (List.cons.inj (heq : ['f', 'a', 'l', 's', 'e'] = c :: tail)).1 (by
        rw [(List.cons.inj h).1]
        decide)
  | _ => cases hc

include hnum in
theorem readable_null : Readable numText .null := by
  intro j' rest rest' _ _ h
  have hkind := kind_eq hnum h
  cases j' <;> try cases hkind
  exact ⟨rfl, List.append_cancel_left h⟩

include hnum in
theorem readable_bool (b : Bool) : Readable numText (.bool b) := by
  intro j' rest rest' _ _ h
  have hkind := kind_eq hnum h
  cases j' <;> try cases hkind
  next b' =>
    cases b <;> cases b'
    · exact ⟨rfl, List.append_cancel_left h⟩
    · exact absurd (List.cons.inj h).1 (by decide)
    · exact absurd (List.cons.inj h).1 (by decide)
    · exact ⟨rfl, List.append_cancel_left h⟩

include hnum in
theorem readable_num (n : ν) : Readable numText (.num n) := by
  intro j' rest rest' hrest hrest' h
  have hkind := kind_eq hnum h
  cases j' <;> try cases hkind
  next m =>
    obtain ⟨htext, hrests⟩ := number_unique (hnum.chars n) (hnum.chars m) hrest hrest' h
    exact ⟨congrArg Json.num (hnum.injective (String.toList_inj.mp htext)), hrests⟩

include hnum in
theorem readable_str (s : String) : Readable numText (.str s) := by
  intro j' rest rest' _ _ h
  have hkind := kind_eq hnum h
  cases j' <;> try cases hkind
  next t =>
    obtain ⟨hst, hrests⟩ := quote_unique h
    exact ⟨congrArg Json.str hst, hrests⟩

include hnum in
theorem readable_arr {items : List (Json ν)} (hitems : ReadableItems numText items) :
    Readable numText (.arr items) := by
  intro j' rest rest' _ _ h
  have hkind := kind_eq hnum h
  cases j' <;> try cases hkind
  next items' =>
    cases items with
    | nil =>
      cases items' with
      | nil => exact ⟨rfl, List.append_cancel_left h⟩
      | cons j' js' =>
        simp only [render, List.cons_append, List.append_assoc, List.nil_append, List.cons.injEq,
          true_and] at h
        exact absurd h.symm (render_ne_bracket hnum j')
    | cons j js =>
      cases items' with
      | nil =>
        simp only [render, List.cons_append, List.append_assoc, List.nil_append, List.cons.injEq,
          true_and] at h
        exact absurd h (render_ne_bracket hnum j)
      | cons j' js' =>
        -- Behind its first character an array goes on as further items do.
        have hmore : renderItems numText (j :: js) ++ rest = renderItems numText (j' :: js') ++ rest' :=
          congrArg (',' :: ·) (List.cons.inj h).2
        obtain ⟨heq, hrests⟩ := hitems (j' :: js') hmore
        exact ⟨congrArg Json.arr heq, hrests⟩

include hnum in
theorem readable_obj {props : List (String × Json ν)} (hprops : ReadableProps numText props) :
    Readable numText (.obj props) := by
  intro j' rest rest' _ _ h
  have hkind := kind_eq hnum h
  cases j' <;> try cases hkind
  next props' =>
    cases props with
    | nil =>
      cases props' with
      | nil => exact ⟨rfl, List.append_cancel_left h⟩
      | cons p' props' => simp [render, toList_quote] at h
    | cons p props =>
      cases props' with
      | nil => simp [render, toList_quote] at h
      | cons p' props' =>
        have hmore : renderProps numText (p :: props) ++ rest =
            renderProps numText (p' :: props') ++ rest' :=
          congrArg (',' :: ·) (List.cons.inj h).2
        obtain ⟨heq, hrests⟩ := hprops (p' :: props') hmore
        exact ⟨congrArg Json.obj heq, hrests⟩

theorem readableItems_nil : ReadableItems numText [] := by
  intro js' rest rest' h
  cases js' with
  | nil => exact ⟨rfl, List.append_cancel_left h⟩
  | cons j' js' => exact absurd (List.cons.inj h).1 (by decide)

theorem readableItems_cons {j : Json ν} {js : List (Json ν)} (hj : Readable numText j)
    (hjs : ReadableItems numText js) : ReadableItems numText (j :: js) := by
  intro js' rest rest' h
  cases js' with
  | nil => exact absurd (List.cons.inj h).1 (by decide)
  | cons j' js' =>
    simp only [renderItems, List.cons_append, List.append_assoc, List.cons.injEq, true_and] at h
    obtain ⟨rfl, htail⟩ :=
      hj j' (closes_renderItems js rest) (closes_renderItems js' rest') h
    obtain ⟨rfl, hrests⟩ := hjs js' htail
    exact ⟨rfl, hrests⟩

theorem readableProps_nil : ReadableProps numText [] := by
  intro props' rest rest' h
  cases props' with
  | nil => exact ⟨rfl, List.append_cancel_left h⟩
  | cons p' props' => exact absurd (List.cons.inj h).1 (by decide)

theorem readableProps_cons {p : String × Json ν} {props : List (String × Json ν)}
    (hp : Readable numText p.2) (hprops : ReadableProps numText props) :
    ReadableProps numText (p :: props) := by
  intro props' rest rest' h
  cases props' with
  | nil => exact absurd (List.cons.inj h).1 (by decide)
  | cons p' props' =>
    obtain ⟨k, v⟩ := p
    obtain ⟨k', v'⟩ := p'
    simp only [renderProps, List.cons_append, List.append_assoc, List.cons.injEq, true_and] at h
    obtain ⟨rfl, hvalue⟩ := quote_unique h
    simp only [List.cons.injEq, true_and] at hvalue
    obtain ⟨rfl, htail⟩ :=
      hp v' (closes_renderProps props rest) (closes_renderProps props' rest') hvalue
    obtain ⟨rfl, hrests⟩ := hprops props' htail
    exact ⟨rfl, hrests⟩

include hnum in
/-- Texts of values can be read back. -/
theorem readable (j : Json ν) : Readable numText j :=
  @Json.rec ν (fun j => Readable numText j) (fun js => ReadableItems numText js)
    (fun props => ReadableProps numText props) (fun p => Readable numText p.2)
    (readable_null hnum) (readable_bool hnum) (readable_num hnum) (readable_str hnum)
    (fun _ h => readable_arr hnum h) (fun _ h => readable_obj hnum h)
    readableItems_nil (fun _ _ hj hjs => readableItems_cons hj hjs)
    readableProps_nil (fun _ _ hp hprops => readableProps_cons hp hprops)
    (fun _ _ h => h) j

include hnum in
/-- **The text of a value determines the value.** -/
theorem render_injective : Function.Injective (render numText) := by
  intro j j' h
  have hclosed : Closes [] := fun c hc => by cases hc
  have htext : render numText j ++ [] = render numText j' ++ [] := by rw [h]
  exact (readable hnum j j' hclosed hclosed htext).1

/-! ### Canonical texts -/

mutual

/-- A value with the properties of every object sorted by `le`. -/
def sorted (le : String → String → Bool) : Json ν → Json ν
  | .null => .null
  | .bool b => .bool b
  | .num n => .num n
  | .str s => .str s
  | .arr items => .arr (sortedItems le items)
  | .obj props => .obj ((sortedProps le props).insertionSort fun a b => le a.1 b.1 = true)
termination_by structural j => j

def sortedItems (le : String → String → Bool) : List (Json ν) → List (Json ν)
  | [] => []
  | j :: js => sorted le j :: sortedItems le js
termination_by structural js => js

def sortedProps (le : String → String → Bool) : List (String × Json ν) → List (String × Json ν)
  | [] => []
  | (k, v) :: props => (k, sorted le v) :: sortedProps le props
termination_by structural props => props

end

variable {le : String → String → Bool}

theorem sortedProps_eq_map (props : List (String × Json ν)) :
    sortedProps le props = props.map fun p => (p.1, sorted le p.2) := by
  induction props with
  | nil => rfl
  | cons p props ih =>
    rw [List.map_cons, ← ih]
    rfl

/-- The text of a value as a string. -/
def text (numText : ν → String) (j : Json ν) : String := String.ofList (render numText j)

theorem toList_text (j : Json ν) : (text numText j).toList = render numText j :=
  String.toList_ofList

theorem text_arr (js : List (Json ν)) :
    "[" ++ String.intercalate "," (js.map (text numText)) ++ "]" = text numText (.arr js) := by
  have hmore : ∀ js : List (Json ν), js ≠ [] →
      ',' :: ((String.intercalate "," (js.map (text numText))).toList ++ [']']) =
        renderItems numText js := by
    intro js hne
    induction js with
    | nil => exact absurd rfl hne
    | cons j js ih =>
      cases js with
      | nil => simp [renderItems, toList_text]
      | cons j' js =>
        have hrest := ih (by simp)
        rw [renderItems, ← hrest]
        simp [String.toList_intercalate, List.intercalate, toList_text]
  refine String.toList_inj.mp ?_
  cases js with
  | nil => rfl
  | cons j js =>
    have htail := (List.cons.inj (hmore (j :: js) (by simp))).2
    rw [toList_text, render, ← htail]
    simp

theorem text_obj (props : List (String × Json ν)) :
    "\x7b" ++ String.intercalate "," ((props.map fun p => (p.1, text numText p.2)).map
      fun p => quote p.1 ++ ":" ++ p.2) ++ "\x7d" = text numText (.obj props) := by
  have hmore : ∀ props : List (String × Json ν), props ≠ [] →
      ',' :: ((String.intercalate "," ((props.map fun p => (p.1, text numText p.2)).map
        fun p => quote p.1 ++ ":" ++ p.2)).toList ++ ['\x7d']) = renderProps numText props := by
    intro props hne
    induction props with
    | nil => exact absurd rfl hne
    | cons p props ih =>
      cases props with
      | nil => simp [renderProps, toList_text]
      | cons p' props =>
        have hrest := ih (by simp)
        rw [renderProps, ← hrest]
        simp [String.toList_intercalate, List.intercalate, toList_text]
  refine String.toList_inj.mp ?_
  cases props with
  | nil => rfl
  | cons p props =>
    have htail := (List.cons.inj (hmore (p :: props) (by simp))).2
    rw [toList_text, render, ← htail]
    simp

/-- The canonical text is the text of the sorted value. -/
theorem canonical_eq_text (j : Json ν) : canonical numText le j = text numText (sorted le j) := by
  refine @Json.rec ν (fun j => canonical numText le j = text numText (sorted le j))
    (fun js => canonicalItems numText le js = (sortedItems le js).map (text numText))
    (fun props => canonicalProps numText le props =
      (sortedProps le props).map fun p => (p.1, text numText p.2))
    (fun p => canonical numText le p.2 = text numText (sorted le p.2))
    ?_ ?_ ?_ ?_ ?_ ?_ ?_ ?_ ?_ ?_ ?_ j
  · rfl
  · intro b
    cases b <;> rfl
  · intro n
    exact (String.ofList_toList).symm
  · intro s
    exact (String.ofList_toList).symm
  · intro items hitems
    rw [canonical, hitems, sorted, text_arr]
  · intro props hprops
    have hsort := List.map_insertionSort (fun a b : String × Json ν => le a.1 b.1 = true)
      (fun a b : String × String => le a.1 b.1 = true) (fun p => (p.1, text numText p.2))
      (sortedProps le props) fun _ _ _ _ => Iff.rfl
    rw [canonical, hprops, sorted, ← text_obj, hsort]
  · rfl
  · intro j js hj hjs
    rw [canonicalItems, hj, hjs]
    rfl
  · rfl
  · intro p props hp hprops
    obtain ⟨k, v⟩ := p
    have hv : canonical numText le v = text numText (sorted le v) := hp
    rw [canonicalProps, hv, hprops]
    rfl
  · intro k v hv
    exact hv

include hnum in
/-- **The canonical text of an object determines its properties**, up to their order. -/
theorem perm_of_canonical {props props' : List (String × Json ν)}
    (h : canonical numText le (.obj props) = canonical numText le (.obj props')) :
    (props.map fun p => (p.1, sorted le p.2)).Perm (props'.map fun p => (p.1, sorted le p.2)) := by
  rw [canonical_eq_text, canonical_eq_text] at h
  have hsorted := render_injective hnum (String.ofList_injective h)
  rw [sorted, sorted, Json.obj.injEq, sortedProps_eq_map, sortedProps_eq_map] at hsorted
  have hperm : ∀ props : List (String × Json ν),
      (props.insertionSort fun a b => le a.1 b.1 = true).Perm props := fun props =>
    List.perm_insertionSort _ props
  exact (hperm _).symm.trans (hsorted ▸ hperm _)

end Json
