import BrightLexer.Text.Utf8
import Mathlib.Data.List.Basic

/-!
# A text and its bytes

A text is a list of characters here, with places that are counted in bytes, while a string holds the
bytes themselves. `cutString?` cuts a string at two byte offsets, and finds out from the bytes at them
whether they are between characters; `asciiAt?` reads a character off one byte, where nothing before it
takes more than one.

Both agree with the list of characters: `cutString?_eq_some_iff` says where a string can be cut and what
is cut out, and `getElem?_of_asciiAt?` which character it is that was read.
-/

namespace BrightLexer

/-! ## Prefixes of a text -/

section
variable {source a b : List Char}

/-- A prefix takes no more bytes than the text. -/
theorem byteLength_le_of_prefix (h : a <+: b) : byteLength a ≤ byteLength b := by
  obtain ⟨t, rfl⟩ := h
  rw [byteLength_append]
  exact Nat.le_add_right ..

/-- Of two prefixes of a text, the one that has no more bytes is a prefix of the other. -/
theorem prefix_of_byteLength_le (ha : a <+: source) (hb : b <+: source)
    (h : byteLength a ≤ byteLength b) : a <+: b := by
  rcases List.prefix_or_prefix_of_prefix ha hb with hab | ⟨t, rfl⟩
  · exact hab
  · have hlength := length_le_byteLength t
    rw [byteLength_append] at h
    have hnil : t = [] := List.eq_nil_of_length_eq_zero (by omega)
    exact ⟨[], by rw [hnil, List.append_nil, List.append_nil]⟩

/-- A prefix of a text is known by the number of its bytes. -/
theorem eq_of_byteLength_eq (ha : a <+: source) (hb : b <+: source)
    (h : byteLength a = byteLength b) : a = b :=
  (prefix_of_byteLength_le ha hb (Nat.le_of_eq h)).eq_of_length_le
    (prefix_of_byteLength_le hb ha (Nat.le_of_eq h.symm)).length_le

end

/-! ## Cutting a string -/

/-- The part of a string between two byte offsets. There is none if they are out of order, or if one of
them is behind the end or inside a character. -/
def cutString? (s : String) (start stop : Nat) : Option String :=
  if h : start ≤ stop ∧ String.Pos.Raw.IsValid s ⟨start⟩ ∧ String.Pos.Raw.IsValid s ⟨stop⟩ then
    some (s.extract (s.pos ⟨start⟩ h.2.1) (s.pos ⟨stop⟩ h.2.2))
  else none

section
variable {cs : List Char} {start stop : Nat}

/-- A text is encoded into as many bytes as its characters take. -/
theorem size_utf8Encode (cs : List Char) : cs.utf8Encode.size = byteLength cs := by
  induction cs with
  | nil => rfl
  | cons c cs ih =>
    rw [List.utf8Encode_cons, ByteArray.size_append, ih, byteLength_cons]
    simp [List.utf8Encode]

/-- A string has as many bytes as its characters take. -/
theorem utf8ByteSize_ofList (cs : List Char) : (String.ofList cs).utf8ByteSize = byteLength cs := by
  rw [← String.size_toByteArray, String.toByteArray_ofList, size_utf8Encode]

/-- A byte offset is between characters if a prefix of the text ends there. -/
theorem isValid_ofList_iff {n : Nat} :
    String.Pos.Raw.IsValid (.ofList cs) ⟨n⟩ ↔ ∃ a, a <+: cs ∧ n = byteLength a := by
  rw [String.Pos.Raw.isValid_ofList]
  simp only [utf8ByteSize_ofList]
  constructor
  · rintro ⟨i, hi⟩
    exact ⟨cs.take i, List.take_prefix i cs, hi⟩
  · rintro ⟨a, ha, hn⟩
    exact ⟨a.length, by rw [hn, ← List.prefix_iff_eq_take.1 ha]⟩

/-- The bytes between two prefixes of a text are those of what stands between them. -/
theorem extract_utf8Encode (a b c : List Char) :
    (a ++ b ++ c).utf8Encode.extract (byteLength a) (byteLength (a ++ b)) = b.utf8Encode := by
  rw [List.append_assoc, List.utf8Encode_append, List.utf8Encode_append, byteLength_append]
  have hfront := ByteArray.extract_append_size_add' (b := b.utf8Encode ++ c.utf8Encode) (i := 0)
    (j := byteLength b) (size_utf8Encode a).symm
  rw [Nat.add_zero] at hfront
  rw [hfront]
  exact ByteArray.extract_append_eq_left (size_utf8Encode b).symm

/-- A string can be cut behind two of its prefixes, and nowhere else. -/
theorem cutString?_eq_some_iff {s : String} : cutString? (.ofList cs) start stop = some s ↔
    ∃ a b, a ++ b <+: cs ∧ start = byteLength a ∧ stop = byteLength (a ++ b) ∧ s = .ofList b := by
  unfold cutString?
  constructor
  · intro h
    split at h
    · next hcut =>
      obtain ⟨hle, hstart, hstop⟩ := hcut
      obtain ⟨a, ha, rfl⟩ := isValid_ofList_iff.1 hstart
      obtain ⟨d, hd, rfl⟩ := isValid_ofList_iff.1 hstop
      obtain ⟨b, rfl⟩ := prefix_of_byteLength_le ha hd hle
      refine ⟨a, b, hd, rfl, rfl, ?_⟩
      obtain ⟨c, rfl⟩ := hd
      cases h
      rw [← String.toByteArray_inj, String.toByteArray_extract, String.toByteArray_ofList,
        String.toByteArray_ofList]
      exact extract_utf8Encode a b c
    · cases h
  · rintro ⟨a, b, hab, rfl, rfl, rfl⟩
    have ha : a <+: cs := (List.prefix_append a b).trans hab
    have hle : byteLength a ≤ byteLength (a ++ b) := byteLength_le_of_prefix (List.prefix_append a b)
    rw [dif_pos ⟨hle, isValid_ofList_iff.2 ⟨a, ha, rfl⟩, isValid_ofList_iff.2 ⟨a ++ b, hab, rfl⟩⟩]
    obtain ⟨c, rfl⟩ := hab
    rw [Option.some_inj, ← String.toByteArray_inj, String.toByteArray_extract,
      String.toByteArray_ofList, String.toByteArray_ofList]
    exact extract_utf8Encode a b c

end

/-! ## Reading single bytes -/

/-- The bytes of a string. -/
def bytesOf (s : String) : List UInt8 := s.toByteArray.data.toList

/-- Character `k` of a string, read off its byte `k`. There is none unless that byte and all before it
are ASCII. -/
def asciiAt? (s : String) (k : Nat) : Option Char :=
  if ((bytesOf s).take (k + 1)).all (· < 128) then (bytesOf s)[k]?.map Char.ofUInt8 else none

/-- The bytes of a text are those of its characters, one after the other. -/
theorem bytesOf_ofList (cs : List Char) :
    bytesOf (.ofList cs) = cs.flatMap String.utf8EncodeChar := by
  rw [bytesOf, String.toByteArray_ofList, List.utf8Encode, List.data_toByteArray]

/-- A character whose first byte is ASCII is that byte, and has no other ones. -/
theorem utf8EncodeChar_of_head_lt {c : Char} {b : UInt8} {rest : List UInt8}
    (hc : String.utf8EncodeChar c = b :: rest) (hb : b < 128) : rest = [] ∧ Char.ofUInt8 b = c := by
  rw [UInt8.lt_iff_toNat_lt, show (128 : UInt8).toNat = 128 from rfl] at hb
  unfold String.utf8EncodeChar at hc
  dsimp only at hc
  split at hc
  · next hv =>
    cases hc
    refine ⟨rfl, Char.ext (UInt32.toNat_inj.1 ?_)⟩
    show (UInt8.ofNat c.val.toNat).toNat = c.val.toNat
    rw [UInt8.toNat_ofNat']
    omega
  · -- The first of several bytes is `0xc0` or more.
    exfalso
    split at hc
    on_goal 2 => split at hc
    all_goals
      cases hc
      rw [UInt8.toNat_ofNat'] at hb
      omega

/-- A character that was read off one byte is the character at this place. -/
theorem getElem?_of_asciiAt? {cs : List Char} {k : Nat} {ch : Char}
    (h : asciiAt? (.ofList cs) k = some ch) : cs[k]? = some ch := by
  rw [asciiAt?, bytesOf_ofList] at h
  split at h
  · next hascii =>
    simp only [List.all_eq_true, decide_eq_true_eq] at hascii
    obtain ⟨b, hb, rfl⟩ := Option.map_eq_some_iff.1 h
    clear h
    induction cs generalizing k with
    | nil => simp at hb
    | cons c cs ih =>
      rw [List.flatMap_cons] at hascii hb
      cases hform : String.utf8EncodeChar c with
      | nil => exact absurd hform String.utf8EncodeChar_ne_nil
      | cons d rest =>
        rw [hform, List.cons_append] at hascii hb
        obtain ⟨rfl, hchar⟩ := utf8EncodeChar_of_head_lt hform (hascii d (by simp))
        cases k with
        | zero =>
          cases hb
          rw [hchar]
          rfl
        | succ k => exact ih (fun e he => hascii e (List.mem_cons_of_mem d he)) hb
  · cases h

end BrightLexer
