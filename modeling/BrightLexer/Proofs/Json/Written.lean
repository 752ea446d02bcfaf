import BrightLexer.Json.Basic
import BrightLexer.Proofs.Json.Grammar

/-!
# What JSON is written as

A JSON value denotes what its text denotes, in both layouts and at any depth (`Json.Denotes`). Strings denote
themselves, whichever characters they hold, and whole numbers are numerals without a fraction or an exponent.
An array denotes the array of what its elements denote, and an object likewise, since the two layouts differ
only in blanks, and these stand where the grammar has them.

So both texts of a value denote the same, and nothing else (`Json.Denotes.jsonText_iff`).
-/

namespace BrightLexer

/-- What a value is written as denotes `v`, wherever it stands. -/
def Json.Denotes (x : Json) (v : JsonValue) : Prop :=
  ∀ layout depth r, Derives (.value v) ((x.write layout depth).toList ++ r) r

namespace Json

variable {layout : Layout} {depth : Nat} {r s : List Char} {x : Json} {v : JsonValue}

/-! ## Blanks -/

/-- A line break is made of blanks. -/
theorem blanks_lineBreak (layout : Layout) (depth : Nat) (r : List Char) :
    Blanks ((layout.lineBreak depth).toList ++ r) r := by
  have hspaces (n : Nat) : Blanks (List.replicate n ' ' ++ r) r := by
    induction n with
    | zero => exact .none
    | succ n ih => exact .cons (.inl rfl) ih
  cases layout with
  | compact => exact .none
  | indented =>
    have htext : (Layout.indented.lineBreak depth).toList = '\n' :: List.replicate (2 * depth) ' ' := by
      simp [Layout.lineBreak]
    rw [htext]
    exact .cons (.inr (.inr (.inl rfl))) (hspaces _)

/-- Behind a key there is a colon, and then blanks. -/
theorem exists_colon (layout : Layout) :
    ∃ gap, layout.colon.toList = ':' :: gap ∧ ∀ r, Blanks (gap ++ r) r := by
  cases layout with
  | compact => exact ⟨[], rfl, fun _ => .none⟩
  | indented => exact ⟨[' '], rfl, fun _ => .cons (.inl rfl) .none⟩

/-! ## Strings -/

/-- A hexadecimal digit is read as the number that it was written for. -/
theorem hexDigit?_digitChar : ∀ n < 16, hexDigit? (Nat.digitChar n) = some n := by decide

/-- A character in a string is written as a text that denotes it. -/
theorem charText_escapeChar (c : Char) : CharText c (escapeChar c) := by
  unfold escapeChar
  split
  · next h =>
    rcases h with rfl | rfl
    all_goals exact .short (by decide)
  split
  · next h => exact .short (by rw [h]; decide)
  split
  · next h => exact .short (by rw [h]; decide)
  split
  · next h => exact .short (by rw [h]; decide)
  split
  · next h => exact .short (by rw [h]; decide)
  split
  · next h => exact .short (by rw [h]; decide)
  split
  · next hcode =>
    have hquad := HexQuad.mk (show hexDigit? '0' = some 0 from rfl) (show hexDigit? '0' = some 0 from rfl)
      (hexDigit?_digitChar (c.toNat / 16) (by omega)) (hexDigit?_digitChar (c.toNat % 16) (by omega))
    have hvalue : ((0 * 16 + 0) * 16 + c.toNat / 16) * 16 + c.toNat % 16 = c.toNat := by omega
    rw [hvalue] at hquad
    exact .code hquad
  · next hquoted _ _ _ _ _ hcode =>
    obtain ⟨hquote, hslash⟩ := not_or.1 hquoted
    exact .plain hquote hslash (Nat.le_of_not_lt hcode)

/-- A string is written as a text that denotes it. -/
theorem stringText_quote (text : String) (r : List Char) :
    StringText text ((quote text).toList ++ r) r := by
  have hchars (cs : List Char) : CharsText cs (cs.flatMap escapeChar ++ '"' :: r) r := by
    induction cs with
    | nil => exact .close
    | cons c cs ih =>
      rw [List.flatMap_cons, List.append_assoc]
      exact .char (charText_escapeChar c) ih
  have htext : (quote text).toList ++ r = '"' :: (text.toList.flatMap escapeChar ++ '"' :: r) := by
    simp [quote]
  rw [htext]
  exact .mk (hchars _)

/-! ## Values -/

/-- Null denotes itself. -/
theorem denotes_null : Json.null.Denotes .null := by
  intro layout depth r
  rw [write]
  exact .leaf .null

/-- A string denotes itself. -/
theorem denotes_string (text : String) : (Json.string text).Denotes (.string text) := by
  intro layout depth r
  rw [write]
  exact .leaf (.string (stringText_quote text r))

/-- A number is written as a numeral that denotes it. -/
theorem denotes_integer (i : Int) :
    ∃ n : SignedNumeral, (Json.integer i).Denotes (.number n) ∧ n.IsWhole ∧ n.value = i := by
  obtain ⟨n, htext, hwhole, hvalue⟩ := SignedNumeral.exists_toString i
  refine ⟨n, fun _ _ r => .leaf (.number ?_), hwhole, hvalue⟩
  rw [write, htext]

/-- The elements of an array, with the line break before the first and what stands behind the last. -/
theorem derives_elements {xs : List Json} {vs : List JsonValue} (hxs : List.Forall₂ Denotes xs vs)
    (hx : x.Denotes v) (layout : Layout) (depth : Nat) (hback : Blanks s r) :
    Derives (.elements (v :: vs)) ((layout.lineBreak depth).toList ++
      ((x.write layout depth).toList ++ ((writeElements layout depth xs).toList ++ s))) r := by
  induction hxs generalizing x v with
  | nil => exact .lastElement (.element (blanks_lineBreak _ _ _) (hx _ _ _) hback)
  | @cons y w ys ws hy _ ih =>
    have hcomma : (writeElements layout depth (y :: ys)).toList ++ s = ',' ::
        ((layout.lineBreak depth).toList ++
          ((y.write layout depth).toList ++ ((writeElements layout depth ys).toList ++ s))) := by
      simp [writeElements]
    rw [hcomma]
    exact .elements (.element (blanks_lineBreak _ _ _) (hx _ _ _) .none) (ih hy)

/-- An array denotes the array of what its elements denote. -/
theorem denotes_array {xs : List Json} {vs : List JsonValue} (h : List.Forall₂ Denotes xs vs) :
    (Json.array xs).Denotes (.array vs) := by
  intro layout depth r
  cases h with
  | nil =>
    rw [write]
    exact .emptyArray .none
  | @cons x v xs vs hx hxs =>
    have htext : ((Json.array (x :: xs)).write layout depth).toList ++ r = '[' ::
        ((layout.lineBreak (depth + 1)).toList ++ ((x.write layout (depth + 1)).toList ++
          ((writeElements layout (depth + 1) xs).toList ++
            ((layout.lineBreak depth).toList ++ ']' :: r)))) := by
      simp [write]
    rw [htext]
    exact .array (derives_elements hxs hx layout (depth + 1) (blanks_lineBreak _ _ _))

/-- A field is written as a member. -/
def FieldDenotes (field : String × Json) (member : String × JsonValue) : Prop :=
  field.1 = member.1 ∧ field.2.Denotes member.2

/-- A field, with the line break before it and what stands behind it. -/
theorem derives_member {field : String × Json} {member : String × JsonValue}
    (h : FieldDenotes field member) (layout : Layout) (depth : Nat) (hback : Blanks s r) :
    Derives (.member member) ((layout.lineBreak depth).toList ++ ((quote field.1).toList ++
      (layout.colon.toList ++ ((field.2.write layout depth).toList ++ s)))) r := by
  obtain ⟨key, value⟩ := member
  obtain ⟨rfl, hvalue⟩ := h
  obtain ⟨gap, hgap, hblanks⟩ := exists_colon layout
  rw [hgap]
  exact .member (blanks_lineBreak _ _ _) (stringText_quote _ _) .none
    (.element (hblanks _) (hvalue _ _ _) hback)

/-- The fields of an object, likewise. -/
theorem derives_members {fields : List (String × Json)} {members : List (String × JsonValue)}
    {field : String × Json} {member : String × JsonValue} (hfields : List.Forall₂ FieldDenotes fields members)
    (hfield : FieldDenotes field member) (layout : Layout) (depth : Nat) (hback : Blanks s r) :
    Derives (.members (member :: members)) ((layout.lineBreak depth).toList ++ ((quote field.1).toList ++
      (layout.colon.toList ++ ((field.2.write layout depth).toList ++
        ((writeFields layout depth fields).toList ++ s))))) r := by
  induction hfields generalizing field member with
  | nil => exact .lastMember (derives_member hfield layout depth hback)
  | @cons other _ fields _ hother _ ih =>
    have hcomma : (writeFields layout depth (other :: fields)).toList ++ s = ',' ::
        ((layout.lineBreak depth).toList ++ ((quote other.1).toList ++ (layout.colon.toList ++
          ((other.2.write layout depth).toList ++ ((writeFields layout depth fields).toList ++ s))))) := by
      simp [writeFields]
    rw [hcomma]
    exact .members (derives_member hfield layout depth .none) (ih hother)

/-- An object denotes the object of what its fields denote. -/
theorem denotes_object {fields : List (String × Json)} {members : List (String × JsonValue)}
    (h : List.Forall₂ FieldDenotes fields members) : (Json.object fields).Denotes (.object members) := by
  intro layout depth r
  cases h with
  | nil =>
    rw [write]
    exact .emptyObject .none
  | @cons field member fields members hfield hfields =>
    have htext : ((Json.object (field :: fields)).write layout depth).toList ++ r = '\x7b' ::
        ((layout.lineBreak (depth + 1)).toList ++ ((quote field.1).toList ++ (layout.colon.toList ++
          ((field.2.write layout (depth + 1)).toList ++
            ((writeFields layout (depth + 1) fields).toList ++
              ((layout.lineBreak depth).toList ++ '\x7d' :: r)))))) := by
      simp [write]
    rw [htext]
    exact .object (derives_members hfields hfield layout (depth + 1) (blanks_lineBreak _ _ _))

/-! ## Texts -/

/-- The text of a value denotes what the value denotes, and nothing else. So does the text with blanks
behind it. -/
theorem Denotes.jsonText_iff (h : x.Denotes v) (layout : Layout) (depth : Nat) {blanks : String}
    (hblanks : Blanks blanks.toList []) {w : JsonValue} :
    JsonText (x.write layout depth ++ blanks) w ↔ w = v := by
  have hv : JsonText (x.write layout depth ++ blanks) v := by
    unfold JsonText
    rw [String.toList_append]
    exact .element .none (h layout depth _) hblanks
  constructor
  · exact fun hw => hw.unique hv
  · rintro rfl
    exact hv

end Json

end BrightLexer
