import BrightLexer.Proofs.Number.SignedNumeral

/-!
# The grammar of JSON

`JsonText text v` is that a text denotes the value `v` as JSON has it: `Derives` is the grammar of values,
elements and members, `CharText` that of the characters in a string, with all of their escapes, and numbers
are signed numerals. A derivation goes from a text to what is left of it, so that no text has to be cut
beforehand.

The grammar knows nothing of how JSON is written here, but it has to be as good as a decoder: a text denotes
one value at most (`JsonText.unique`). What carries this is that the first character of a value tells what
kind of value it is (`Derives.exists_head`), and that the blanks, the commas and the closing brackets that may
stand behind a value neither go on it nor start another one.
-/

namespace BrightLexer

/-- What a JSON text denotes. A number is kept as it is written. -/
inductive JsonValue where
  | null
  | bool (b : Bool)
  | number (n : SignedNumeral)
  | string (s : String)
  | array (elements : List JsonValue)
  | object (members : List (String × JsonValue))

/-! ## Strings -/

/-- The value of a digit in base 16, in either case. -/
def hexDigit? (c : Char) : Option Nat :=
  if '0' ≤ c ∧ c ≤ '9' then some (c.toNat - '0'.toNat)
  else if 'a' ≤ c ∧ c ≤ 'f' then some (c.toNat - 'a'.toNat + 10)
  else if 'A' ≤ c ∧ c ≤ 'F' then some (c.toNat - 'A'.toNat + 10)
  else none

/-- Four digits in base 16. -/
inductive HexQuad : List Char → Nat → Prop
  | mk {a b c d : Char} {i j k l : Nat} : hexDigit? a = some i → hexDigit? b = some j →
      hexDigit? c = some k → hexDigit? d = some l →
      HexQuad [a, b, c, d] (((i * 16 + j) * 16 + k) * 16 + l)

/-- The letters that stand for a character behind a backslash. -/
def shortEscapes : List (Char × Char) :=
  [('"', '"'), ('\\', '\\'), ('/', '/'), ('b', '\x08'), ('f', '\x0c'), ('n', '\n'), ('r', '\r'),
    ('t', '\t')]

/-- How a character may stand in a string: as itself, behind a backslash, by its code, or by the codes of
its two surrogates. -/
inductive CharText : Char → List Char → Prop
  | plain {c : Char} : c ≠ '"' → c ≠ '\\' → 32 ≤ c.toNat → CharText c [c]
  | short {letter c : Char} : (letter, c) ∈ shortEscapes → CharText c ['\\', letter]
  | code {c : Char} {ds : List Char} : HexQuad ds c.toNat → CharText c ('\\' :: 'u' :: ds)
  | pair {c : Char} {high low : List Char} {m n : Nat} : HexQuad high m → HexQuad low n →
      0xd800 ≤ m → m < 0xdc00 → 0xdc00 ≤ n → n < 0xe000 →
      c.toNat = 0x10000 + (m - 0xd800) * 0x400 + (n - 0xdc00) →
      CharText c ('\\' :: 'u' :: high ++ '\\' :: 'u' :: low)

/-- The characters of a string, up to its closing quote. -/
inductive CharsText : List Char → List Char → List Char → Prop
  | close {r : List Char} : CharsText [] ('"' :: r) r
  | char {c : Char} {cs a t r : List Char} : CharText c a → CharsText cs t r →
      CharsText (c :: cs) (a ++ t) r

/-- A string. -/
inductive StringText : String → List Char → List Char → Prop
  | mk {s : String} {t r : List Char} : CharsText s.toList t r → StringText s ('"' :: t) r

/-! ## Values -/

/-- The characters that may stand between the parts of a text. -/
def IsJsonBlank (c : Char) : Prop := c = ' ' ∨ c = '\t' ∨ c = '\n' ∨ c = '\r'

/-- Any number of blanks. -/
inductive Blanks : List Char → List Char → Prop
  | none {r : List Char} : Blanks r r
  | cons {c : Char} {t r : List Char} : IsJsonBlank c → Blanks t r → Blanks (c :: t) r

/-- A value that holds no others. -/
inductive LeafText : JsonValue → List Char → List Char → Prop
  | null {r : List Char} : LeafText .null ('n' :: 'u' :: 'l' :: 'l' :: r) r
  | isTrue {r : List Char} : LeafText (.bool true) ('t' :: 'r' :: 'u' :: 'e' :: r) r
  | isFalse {r : List Char} : LeafText (.bool false) ('f' :: 'a' :: 'l' :: 's' :: 'e' :: r) r
  | number {n : SignedNumeral} {t r : List Char} : t = n.text ++ r → LeafText (.number n) t r
  | string {s : String} {t r : List Char} : StringText s t r → LeafText (.string s) t r

/-- What a part of a text may be. -/
inductive Phrase where
  /-- A value. -/
  | value (v : JsonValue)
  /-- A value with blanks around it. -/
  | element (v : JsonValue)
  /-- A key and its value, with blanks around them. -/
  | member (m : String × JsonValue)
  /-- One element or more. -/
  | elements (vs : List JsonValue)
  /-- One member or more. -/
  | members (ms : List (String × JsonValue))

/-- A text is a phrase and a rest. -/
inductive Derives : Phrase → List Char → List Char → Prop
  | leaf {v : JsonValue} {t r : List Char} : LeafText v t r → Derives (.value v) t r
  | emptyArray {t r : List Char} : Blanks t (']' :: r) → Derives (.value (.array [])) ('[' :: t) r
  | array {vs : List JsonValue} {t r : List Char} : Derives (.elements vs) t (']' :: r) →
      Derives (.value (.array vs)) ('[' :: t) r
  | emptyObject {t r : List Char} : Blanks t ('\x7d' :: r) →
      Derives (.value (.object [])) ('\x7b' :: t) r
  | object {ms : List (String × JsonValue)} {t r : List Char} : Derives (.members ms) t ('\x7d' :: r) →
      Derives (.value (.object ms)) ('\x7b' :: t) r
  | element {v : JsonValue} {t t₁ t₂ r : List Char} : Blanks t t₁ → Derives (.value v) t₁ t₂ →
      Blanks t₂ r → Derives (.element v) t r
  | member {key : String} {v : JsonValue} {t t₁ t₂ t₃ r : List Char} : Blanks t t₁ →
      StringText key t₁ t₂ → Blanks t₂ (':' :: t₃) → Derives (.element v) t₃ r →
      Derives (.member (key, v)) t r
  | lastElement {v : JsonValue} {t r : List Char} : Derives (.element v) t r → Derives (.elements [v]) t r
  | elements {v : JsonValue} {vs : List JsonValue} {t t₁ r : List Char} :
      Derives (.element v) t (',' :: t₁) → Derives (.elements vs) t₁ r → Derives (.elements (v :: vs)) t r
  | lastMember {m : String × JsonValue} {t r : List Char} : Derives (.member m) t r →
      Derives (.members [m]) t r
  | members {m : String × JsonValue} {ms : List (String × JsonValue)} {t t₁ r : List Char} :
      Derives (.member m) t (',' :: t₁) → Derives (.members ms) t₁ r → Derives (.members (m :: ms)) t r

/-- A text denotes a value, which blanks may surround. -/
def JsonText (text : String) (v : JsonValue) : Prop := Derives (.element v) text.toList []

/-! ## A string is known from its text -/

section
variable {c d : Char} {a b cs ds r s t : List Char} {m n : Nat}

/-- Four hexadecimal digits denote one number. -/
theorem HexQuad.unique (hm : HexQuad a m) (hn : HexQuad b n) (h : a ++ r = b ++ s) :
    m = n ∧ r = s := by
  obtain ⟨h1, h2, h3, h4⟩ := hm
  obtain ⟨k1, k2, k3, k4⟩ := hn
  simp only [List.cons_append, List.nil_append, List.cons.injEq] at h
  obtain ⟨rfl, rfl, rfl, rfl, rfl⟩ := h
  cases h1.symm.trans k1
  cases h2.symm.trans k2
  cases h3.symm.trans k3
  cases h4.symm.trans k4
  exact ⟨rfl, rfl⟩

/-- No character is a surrogate. -/
theorem not_surrogate (c : Char) : c.toNat < 0xd800 ∨ 0xe000 ≤ c.toNat := by
  rcases c.valid with h | h
  · exact .inl h
  · exact .inr h.1

/-- No character is written with a quote at the front. -/
theorem CharText.exists_cons (h : CharText c a) : ∃ x xs, a = x :: xs ∧ x ≠ '"' := by
  cases h with
  | plain hquote _ _ => exact ⟨_, _, rfl, hquote⟩
  | short _ | code _ | pair _ _ _ _ _ _ _ => exact ⟨_, _, rfl, by decide⟩

/-- A character is known from how it stands in a string. -/
theorem CharText.unique (hc : CharText c a) (hd : CharText d b) (h : a ++ r = b ++ s) :
    c = d ∧ r = s := by
  have hletter : ∀ p ∈ shortEscapes, p.1 ≠ 'u' := by decide
  have hshort : ∀ p ∈ shortEscapes, ∀ q ∈ shortEscapes, p.1 = q.1 → p.2 = q.2 := by decide
  have hcodes {c d : Char} (h : c.toNat = d.toNat) : c = d := Char.toNat_inj.1 h
  cases hc with
  | plain _ hslash _ =>
    cases hd with
    | plain _ _ _ => exact List.cons.inj h
    | short _ | code _ | pair _ _ _ _ _ _ _ => exact absurd (List.cons.inj h).1 hslash
  | short hmem =>
    cases hd with
    | plain _ hslash _ => exact absurd (List.cons.inj h).1.symm hslash
    | short hmem' =>
      obtain ⟨hsame, hrest⟩ := List.cons.inj (List.cons.inj h).2
      exact ⟨hshort _ hmem _ hmem' hsame, hrest⟩
    | code _ | pair _ _ _ _ _ _ _ =>
      exact absurd (List.cons.inj (List.cons.inj h).2).1 (hletter _ hmem)
  | code hquad =>
    cases hd with
    | plain _ hslash _ => exact absurd (List.cons.inj h).1.symm hslash
    | short hmem => exact absurd (List.cons.inj (List.cons.inj h).2).1.symm (hletter _ hmem)
    | code hquad' =>
      obtain ⟨hsame, hrest⟩ := hquad.unique hquad' (List.cons.inj (List.cons.inj h).2).2
      exact ⟨hcodes hsame, hrest⟩
    | pair hhigh _ hm hm' _ _ _ =>
      -- The code of a character is not that of a surrogate.
      simp only [List.cons_append, List.append_assoc, List.cons.injEq, true_and] at h
      have hsame := (hquad.unique hhigh h).1
      rcases not_surrogate c with hlow | hhigh
      · omega
      · omega
  | pair hhigh hlow hm hm' hn hn' hcode =>
    cases hd with
    | plain _ hslash _ => exact absurd (List.cons.inj h).1.symm hslash
    | short hmem => exact absurd (List.cons.inj (List.cons.inj h).2).1.symm (hletter _ hmem)
    | code hquad =>
      simp only [List.cons_append, List.append_assoc, List.cons.injEq, true_and] at h
      have hsame := (hhigh.unique hquad h).1
      rcases not_surrogate d with hlow | hhigh
      · omega
      · omega
    | pair hhigh' hlow' _ _ _ _ hcode' =>
      simp only [List.cons_append, List.append_assoc, List.cons.injEq, true_and] at h
      obtain ⟨rfl, h⟩ := hhigh.unique hhigh' h
      obtain ⟨rfl, hrest⟩ := hlow.unique hlow' (List.cons.inj (List.cons.inj h).2).2
      exact ⟨hcodes (hcode.trans hcode'.symm), hrest⟩

/-- The characters of a string are known from its text. -/
theorem CharsText.unique (hc : CharsText cs t r) (hd : CharsText ds t s) : cs = ds ∧ r = s := by
  induction hc generalizing ds s with
  | close =>
    generalize ht : '"' :: _ = t at hd
    cases hd with
    | close => exact ⟨rfl, (List.cons.inj ht).2⟩
    | char ha _ =>
      obtain ⟨x, xs, rfl, hx⟩ := ha.exists_cons
      exact absurd (List.cons.inj ht).1.symm hx
  | @char c cs a t r ha _ ih =>
    generalize ht : a ++ t = u at hd
    cases hd with
    | close =>
      obtain ⟨x, xs, rfl, hx⟩ := ha.exists_cons
      exact absurd (List.cons.inj ht).1 hx
    | char hb hd =>
      obtain ⟨rfl, rfl⟩ := ha.unique hb ht
      obtain ⟨rfl, rfl⟩ := ih hd
      exact ⟨rfl, rfl⟩

/-- A string is known from its text. -/
theorem StringText.unique {x y : String} (hx : StringText x t r) (hy : StringText y t s) :
    x = y ∧ r = s := by
  obtain ⟨hx⟩ := hx
  obtain ⟨hy⟩ := hy
  obtain ⟨hchars, hrest⟩ := hx.unique hy
  exact ⟨String.toList_inj.1 hchars, hrest⟩

end

/-! ## A value is known from its text -/

/-- What kind of value a value is. -/
inductive ValueKind where
  | null
  | bool (b : Bool)
  | number
  | string
  | array
  | object

def JsonValue.kind : JsonValue → ValueKind
  | .null => .null
  | .bool b => .bool b
  | .number _ => .number
  | .string _ => .string
  | .array _ => .array
  | .object _ => .object

/-- The kind of value that a character starts. -/
def ValueKind.ofChar? (c : Char) : Option ValueKind :=
  if c = '-' ∨ c.isDigit = true then some .number
  else if c = 'n' then some .null
  else if c = 't' then some (.bool true)
  else if c = 'f' then some (.bool false)
  else if c = '"' then some .string
  else if c = '[' then some .array
  else if c = '\x7b' then some .object
  else none

/-- Nothing in front is blank. -/
def NoBlank (r : List Char) : Prop := ∀ c ∈ r.head?, ¬ IsJsonBlank c

/-- What stands behind an element or a member: a comma, a closing bracket, or nothing. -/
def EndsItem (r : List Char) : Prop := ∀ c ∈ r.head?, c = ',' ∨ c = ']' ∨ c = '\x7d'

/-- What stands behind a value: a blank, or what stands behind an element. -/
def EndsValue (r : List Char) : Prop := ∀ c ∈ r.head?, IsJsonBlank c ∨ c = ',' ∨ c = ']' ∨ c = '\x7d'

/-- What stands behind all elements or members: a closing bracket. -/
def Closes (r : List Char) : Prop := ∃ c s, r = c :: s ∧ (c = ']' ∨ c = '\x7d')

/-- What stands behind a phrase. -/
def Phrase.Ends : Phrase → List Char → Prop
  | .value _ => EndsValue
  | .element _ | .member _ => EndsItem
  | .elements _ | .members _ => Closes

/-- Two phrases are of the same sort. -/
def Phrase.SameSort : Phrase → Phrase → Prop
  | .value _, .value _ | .element _, .element _ | .member _, .member _ | .elements _, .elements _
  | .members _, .members _ => True
  | _, _ => False

section
variable {p q : Phrase} {v w : JsonValue} {r s t : List Char} {c : Char}

/-! ### What stands behind a phrase -/

/-- A closing bracket ends an element or a member. -/
theorem Closes.endsItem (h : Closes r) : EndsItem r := by
  obtain ⟨c, s, rfl, hc⟩ := h
  intro d hd
  obtain rfl := Option.some.inj hd
  exact .inr hc

/-- What ends an element ends its value. -/
theorem EndsItem.endsValue (h : EndsItem r) : EndsValue r := fun c hc => .inr (h c hc)

/-- What ends an element is no blank. -/
theorem EndsItem.noBlank (h : EndsItem r) : NoBlank r := by
  intro c hc
  unfold IsJsonBlank
  rcases h c hc with rfl | rfl | rfl
  all_goals decide

/-- What ends a value ends a numeral. -/
theorem EndsValue.endsNumeral (h : EndsValue r) : SignedNumeral.EndsNumeral r := by
  intro c hc
  rcases h c hc with (rfl | rfl | rfl | rfl) | rfl | rfl | rfl
  all_goals decide

/-- A comma ends an element, but it does not close an array or an object. -/
theorem endsItem_comma (r : List Char) : EndsItem (',' :: r) ∧ ¬ Closes (',' :: r) := by
  constructor
  · intro d hd
    exact .inl (Option.some.inj hd).symm
  · rintro ⟨d, ds, heq, hd⟩
    obtain ⟨rfl, -⟩ := List.cons.inj heq
    rcases hd with hd | hd
    all_goals cases hd

/-- A colon is no blank. -/
theorem noBlank_colon (r : List Char) : NoBlank (':' :: r) := by
  intro c hc
  obtain rfl := Option.some.inj hc
  unfold IsJsonBlank
  decide

/-- A square bracket closes an array. -/
theorem closes_bracket (r : List Char) : Closes (']' :: r) := ⟨_, _, rfl, .inl rfl⟩

/-- A curly bracket closes an object. -/
theorem closes_brace (r : List Char) : Closes ('\x7d' :: r) := ⟨_, _, rfl, .inr rfl⟩

/-- Blanks may stand between a value and its end. -/
theorem Blanks.endsValue (h : Blanks t r) (hr : EndsItem r) : EndsValue t := by
  cases h with
  | none => exact hr.endsValue
  | cons hc _ =>
    intro d hd
    obtain rfl := Option.some.inj hd
    exact .inl hc

/-- Blanks end where something else starts. -/
theorem Blanks.unique (hr : Blanks t r) (hs : Blanks t s) (hr' : NoBlank r) (hs' : NoBlank s) : r = s := by
  induction hr with
  | none =>
    cases hs with
    | none => rfl
    | cons hc _ => exact absurd hc (hr' _ rfl)
  | cons hc _ ih =>
    cases hs with
    | none => exact absurd hc (hs' _ rfl)
    | cons _ hs => exact ih hs hr'

/-! ### How a phrase starts -/

/-- A numeral starts with a minus sign or a digit. -/
theorem SignedNumeral.exists_head (n : SignedNumeral) :
    ∃ c cs, n.text = c :: cs ∧ (c = '-' ∨ c.isDigit = true) := by
  obtain ⟨negative, f, hf⟩ := n
  cases negative with
  | true => exact ⟨'-', f.text, rfl, .inl rfl⟩
  | false =>
    obtain ⟨c, cs, hcs, hc⟩ := f.whole.exists_cons
    refine ⟨c, cs ++ fractionText f.fraction ++ exponentText f.exponent ++ suffixText f.suffix, ?_, .inr hc⟩
    change f.text = _
    rw [NumeralForm.text, NumeralForm.unsuffixed, NumeralForm.mantissa, hcs]
    rfl

/-- The first character of a value tells its kind. -/
theorem LeafText.exists_head (h : LeafText v t r) :
    ∃ c cs, t = c :: cs ∧ ValueKind.ofChar? c = some v.kind := by
  cases h with
  | null | isTrue | isFalse => exact ⟨_, _, rfl, rfl⟩
  | @number n _ _ ht =>
    obtain ⟨c, cs, hcs, hc⟩ := n.exists_head
    exact ⟨c, cs ++ r, by rw [ht, hcs, List.cons_append], if_pos hc⟩
  | string h =>
    cases h
    exact ⟨_, _, rfl, rfl⟩

/-- The first character of a value tells its kind, also if it holds others. -/
theorem Derives.exists_head (h : Derives (.value v) t r) :
    ∃ c cs, t = c :: cs ∧ ValueKind.ofChar? c = some v.kind := by
  cases h with
  | leaf h => exact h.exists_head
  | emptyArray _ | array _ | emptyObject _ | object _ => exact ⟨_, _, rfl, rfl⟩

/-- A character that starts a value is neither blank nor a closing bracket. -/
theorem starts_of_ofChar? {kind : ValueKind} {cs : List Char} (hc : ValueKind.ofChar? c = some kind) :
    NoBlank (c :: cs) ∧ ¬ Closes (c :: cs) := by
  constructor
  · intro d hd
    obtain rfl := Option.some.inj hd
    rintro (rfl | rfl | rfl | rfl)
    all_goals cases hc
  · rintro ⟨d, ds, heq, hd⟩
    obtain ⟨rfl, -⟩ := List.cons.inj heq
    rcases hd with rfl | rfl
    all_goals cases hc

/-- A value starts with neither a blank nor a closing bracket. -/
theorem Derives.starts (h : Derives (.value v) t r) : NoBlank t ∧ ¬ Closes t := by
  obtain ⟨c, cs, rfl, hc⟩ := h.exists_head
  exact starts_of_ofChar? hc

/-- A string starts with neither a blank nor a closing bracket. -/
theorem StringText.starts {x : String} (h : StringText x t r) : NoBlank t ∧ ¬ Closes t := by
  obtain ⟨h⟩ := h
  exact @starts_of_ofChar? '"' .string _ rfl

/-- Elements and members do not start with a closing bracket, so they are told from none. -/
theorem Derives.not_closes (h : Derives p t r) (hp : ∀ v, p ≠ .value v) (hs : Blanks t s) : ¬ Closes s := by
  intro hclose
  induction h with
  | leaf | emptyArray | array | emptyObject | object => exact hp _ rfl
  | element hfront hv _ =>
    obtain rfl := hfront.unique hs hv.starts.1 hclose.endsItem.noBlank
    exact hv.starts.2 hclose
  | member hfront hkey _ _ =>
    obtain rfl := hfront.unique hs hkey.starts.1 hclose.endsItem.noBlank
    exact hkey.starts.2 hclose
  | lastElement _ ih | elements _ _ ih _ | lastMember _ ih | members _ _ ih _ => exact ih nofun hs

/-! ### Phrases of one sort -/

/-- A phrase of the sort of a value is one. -/
theorem Phrase.SameSort.exists_value (h : (Phrase.value v).SameSort q) : ∃ w, q = .value w := by
  cases q with
  | value w => exact ⟨w, rfl⟩
  | element | member | elements | members => cases h

/-- A phrase of the sort of an element is one. -/
theorem Phrase.SameSort.exists_element (h : (Phrase.element v).SameSort q) : ∃ w, q = .element w := by
  cases q with
  | element w => exact ⟨w, rfl⟩
  | value | member | elements | members => cases h

/-- A phrase of the sort of a member is one. -/
theorem Phrase.SameSort.exists_member {m : String × JsonValue} (h : (Phrase.member m).SameSort q) :
    ∃ k, q = .member k := by
  cases q with
  | member k => exact ⟨k, rfl⟩
  | value | element | elements | members => cases h

/-- A phrase of the sort of some elements is one. -/
theorem Phrase.SameSort.exists_elements {vs : List JsonValue} (h : (Phrase.elements vs).SameSort q) :
    ∃ ws, q = .elements ws := by
  cases q with
  | elements ws => exact ⟨ws, rfl⟩
  | value | element | member | members => cases h

/-- A phrase of the sort of some members is one. -/
theorem Phrase.SameSort.exists_members {ms : List (String × JsonValue)}
    (h : (Phrase.members ms).SameSort q) : ∃ ks, q = .members ks := by
  cases q with
  | members ks => exact ⟨ks, rfl⟩
  | value | element | member | elements => cases h

/-- A value that holds no others does not start with a bracket. -/
theorem LeafText.not_bracket (h : LeafText v (c :: t) r) : c ≠ '[' ∧ c ≠ '\x7b' := by
  obtain ⟨d, ds, heq, hkind⟩ := h.exists_head
  obtain ⟨rfl, -⟩ := List.cons.inj heq
  constructor
  all_goals
    rintro rfl
    cases h <;> cases hkind

/-- A value behind an opening bracket is an array, and it has no elements or some. -/
theorem Derives.array_cases (h : Derives (.value v) ('[' :: t) r) :
    (v = .array [] ∧ Blanks t (']' :: r)) ∨ ∃ vs, v = .array vs ∧ Derives (.elements vs) t (']' :: r) := by
  cases h with
  | leaf h => exact absurd rfl h.not_bracket.1
  | emptyArray h => exact .inl ⟨rfl, h⟩
  | array h => exact .inr ⟨_, rfl, h⟩

/-- A value behind an opening brace is an object, and it has no members or some. -/
theorem Derives.object_cases (h : Derives (.value v) ('\x7b' :: t) r) :
    (v = .object [] ∧ Blanks t ('\x7d' :: r)) ∨
      ∃ ms, v = .object ms ∧ Derives (.members ms) t ('\x7d' :: r) := by
  cases h with
  | leaf h => exact absurd rfl h.not_bracket.2
  | emptyObject h => exact .inl ⟨rfl, h⟩
  | object h => exact .inr ⟨_, rfl, h⟩

/-! ### Where a phrase ends -/

/-- A value that holds no others is known from its text. -/
theorem LeafText.unique (hv : LeafText v t r) (hw : LeafText w t s) (hr : EndsValue r)
    (hs : EndsValue s) : v = w ∧ r = s := by
  obtain ⟨c, cs, hcs, hkind⟩ := hv.exists_head
  obtain ⟨d, ds, hds, hkind'⟩ := hw.exists_head
  obtain ⟨rfl, -⟩ := List.cons.inj (hcs.symm.trans hds)
  have hsame : v.kind = w.kind := Option.some.inj (hkind.symm.trans hkind')
  cases hw with
  | null | isTrue | isFalse =>
    cases hv with
    | number | string => cases hsame
    | _ => exact ⟨rfl, rfl⟩
  | number hk =>
    cases hv with
    | number hn =>
      obtain ⟨rfl, rfl⟩ := SignedNumeral.text_append_injective hr.endsNumeral hs.endsNumeral
        (hn.symm.trans hk)
      exact ⟨rfl, rfl⟩
    | null | isTrue | isFalse | string => cases hsame
  | string hy =>
    cases hv with
    | string hx =>
      obtain ⟨rfl, rfl⟩ := hx.unique hy
      exact ⟨rfl, rfl⟩
    | null | isTrue | isFalse | number => cases hsame

/-- A phrase is known from its text and from where it ends. -/
theorem Derives.unique (h : Derives p t r) (hq : Derives q t s) (hsort : p.SameSort q) (hr : p.Ends r)
    (hs : q.Ends s) : p = q ∧ r = s := by
  induction h generalizing q s with
  | leaf hv =>
    obtain ⟨w, rfl⟩ := hsort.exists_value
    cases hq with
    | leaf hw =>
      obtain ⟨rfl, rfl⟩ := hv.unique hw hr hs
      exact ⟨rfl, rfl⟩
    | emptyArray | array => exact absurd rfl hv.not_bracket.1
    | emptyObject | object => exact absurd rfl hv.not_bracket.2
  | @emptyArray t r hblanks =>
    obtain ⟨w, rfl⟩ := hsort.exists_value
    obtain ⟨rfl, hblanks'⟩ | ⟨ws, rfl, hws⟩ := hq.array_cases
    · have hrest := hblanks.unique hblanks' (closes_bracket r).endsItem.noBlank
        (closes_bracket _).endsItem.noBlank
      exact ⟨rfl, (List.cons.inj hrest).2⟩
    · exact absurd (closes_bracket r) (hws.not_closes nofun hblanks)
  | array hvs ih =>
    obtain ⟨w, rfl⟩ := hsort.exists_value
    obtain ⟨rfl, hblanks⟩ | ⟨ws, rfl, hws⟩ := hq.array_cases
    · exact absurd (closes_bracket _) (hvs.not_closes nofun hblanks)
    · obtain ⟨hsame, hrest⟩ := ih hws trivial (closes_bracket _) (closes_bracket _)
      cases hsame
      exact ⟨rfl, (List.cons.inj hrest).2⟩
  | @emptyObject t r hblanks =>
    obtain ⟨w, rfl⟩ := hsort.exists_value
    obtain ⟨rfl, hblanks'⟩ | ⟨ks, rfl, hks⟩ := hq.object_cases
    · have hrest := hblanks.unique hblanks' (closes_brace r).endsItem.noBlank
        (closes_brace _).endsItem.noBlank
      exact ⟨rfl, (List.cons.inj hrest).2⟩
    · exact absurd (closes_brace r) (hks.not_closes nofun hblanks)
  | object hms ih =>
    obtain ⟨w, rfl⟩ := hsort.exists_value
    obtain ⟨rfl, hblanks⟩ | ⟨ks, rfl, hks⟩ := hq.object_cases
    · exact absurd (closes_brace _) (hms.not_closes nofun hblanks)
    · obtain ⟨hsame, hrest⟩ := ih hks trivial (closes_brace _) (closes_brace _)
      cases hsame
      exact ⟨rfl, (List.cons.inj hrest).2⟩
  | element hfront hv hback ih =>
    obtain ⟨w, rfl⟩ := hsort.exists_element
    cases hq with
    | element hfront' hw hback' =>
      obtain rfl := hfront.unique hfront' hv.starts.1 hw.starts.1
      obtain ⟨hsame, rfl⟩ := ih hw trivial (hback.endsValue hr) (hback'.endsValue hs)
      cases hsame
      exact ⟨rfl, hback.unique hback' hr.noBlank hs.noBlank⟩
  | member hfront hkey hcolon _ ih =>
    obtain ⟨k, rfl⟩ := hsort.exists_member
    cases hq with
    | member hfront' hkey' hcolon' hw =>
      obtain rfl := hfront.unique hfront' hkey.starts.1 hkey'.starts.1
      obtain ⟨rfl, rfl⟩ := hkey.unique hkey'
      have hrest := hcolon.unique hcolon' (noBlank_colon _) (noBlank_colon _)
      obtain ⟨-, rfl⟩ := List.cons.inj hrest
      obtain ⟨hsame, rfl⟩ := ih hw trivial hr hs
      cases hsame
      exact ⟨rfl, rfl⟩
  | lastElement _ ih =>
    obtain ⟨ws, rfl⟩ := hsort.exists_elements
    cases hq with
    | lastElement hw =>
      obtain ⟨hsame, rfl⟩ := ih hw trivial hr.endsItem hs.endsItem
      cases hsame
      exact ⟨rfl, rfl⟩
    | elements hw _ =>
      obtain ⟨-, rfl⟩ := ih hw trivial hr.endsItem (endsItem_comma _).1
      exact absurd hr (endsItem_comma _).2
  | elements _ _ ih ihs =>
    obtain ⟨ws, rfl⟩ := hsort.exists_elements
    cases hq with
    | lastElement hw =>
      obtain ⟨-, rfl⟩ := ih hw trivial (endsItem_comma _).1 hs.endsItem
      exact absurd hs (endsItem_comma _).2
    | elements hw hws =>
      obtain ⟨hsame, hrest⟩ := ih hw trivial (endsItem_comma _).1 (endsItem_comma _).1
      cases hsame
      obtain ⟨-, rfl⟩ := List.cons.inj hrest
      obtain ⟨hsame, rfl⟩ := ihs hws trivial hr hs
      cases hsame
      exact ⟨rfl, rfl⟩
  | lastMember _ ih =>
    obtain ⟨ks, rfl⟩ := hsort.exists_members
    cases hq with
    | lastMember hm =>
      obtain ⟨hsame, rfl⟩ := ih hm trivial hr.endsItem hs.endsItem
      cases hsame
      exact ⟨rfl, rfl⟩
    | members hm _ =>
      obtain ⟨-, rfl⟩ := ih hm trivial hr.endsItem (endsItem_comma _).1
      exact absurd hr (endsItem_comma _).2
  | members _ _ ih ihs =>
    obtain ⟨ks, rfl⟩ := hsort.exists_members
    cases hq with
    | lastMember hm =>
      obtain ⟨-, rfl⟩ := ih hm trivial (endsItem_comma _).1 hs.endsItem
      exact absurd hs (endsItem_comma _).2
    | members hm hms =>
      obtain ⟨hsame, hrest⟩ := ih hm trivial (endsItem_comma _).1 (endsItem_comma _).1
      cases hsame
      obtain ⟨-, rfl⟩ := List.cons.inj hrest
      obtain ⟨hsame, rfl⟩ := ihs hms trivial hr hs
      cases hsame
      exact ⟨rfl, rfl⟩

/-- A text denotes one value at most. -/
theorem JsonText.unique {text : String} (hv : JsonText text v) (hw : JsonText text w) : v = w :=
  Phrase.element.inj (Derives.unique hv hw trivial nofun nofun).1

end

end BrightLexer
