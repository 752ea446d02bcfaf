import BrightLexer.Text.Cut

/-!
# Quoted text in a source

A quoted text stands between double quotes on one line, and a quote inside it is written twice.
`cutQuotation` reads one from the front of a text; when the line ends before the closing quote there
is no content, and everything up to the line end is taken.
-/

namespace BrightLexer

/-- A quoted text at the front of a text. -/
structure Quotation extends Cut where
  /-- The text between the quotes, with each doubled quote once; none without a closing quote. -/
  content : Option (List Char)
deriving DecidableEq

/-- The same quotation with characters before it: `front` as written, `char` as meant. -/
def Quotation.extend (front : List Char) (char : Char) (q : Quotation) : Quotation :=
  ⟨q.toCut.after front, q.content.map (char :: ·)⟩

/-- Reads a quoted text from behind its opening quote. -/
def cutQuotationBody : List Char → Quotation
  | [] => ⟨.empty [], none⟩
  | '"' :: '"' :: cs => (cutQuotationBody cs).extend ['"', '"'] '"'
  | '"' :: cs => ⟨⟨['"'], cs⟩, some []⟩
  | c :: cs =>
    if c = '\n' then ⟨.empty (c :: cs), none⟩ else (cutQuotationBody cs).extend [c] c

/-- Reads a quoted text. The first character is taken as the opening quote, whatever it is. -/
def cutQuotation : List Char → Quotation
  | [] => cutQuotationBody []
  | c :: cs => let q := cutQuotationBody cs; ⟨q.toCut.after [c], q.content⟩

/-- The rest of a quoted text loses no character. -/
@[simp] theorem whole_cutQuotationBody (cs : List Char) : (cutQuotationBody cs).whole = cs := by
  fun_induction cutQuotationBody cs <;> simp_all [Quotation.extend]

/-- A quoted text loses no character. -/
@[simp] theorem whole_cutQuotation (cs : List Char) : (cutQuotation cs).whole = cs := by
  cases cs with
  | nil => rfl
  | cons c cs => simp [cutQuotation]

/-- A quoted text takes its opening quote. -/
theorem taken_cutQuotation_ne_nil (c : Char) (cs : List Char) :
    (cutQuotation (c :: cs)).taken ≠ [] := by
  simp [cutQuotation]

end BrightLexer
