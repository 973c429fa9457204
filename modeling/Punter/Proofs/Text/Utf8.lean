/-
# Texts are read from their bytes

The bytes of a text are read as this text, strictly or not: each character is encoded by a first
byte that tells how many follow, and by the bytes that do.
-/
import Mathlib
import Punter.Text.Utf8

namespace Punter.Text

/-- The bytes of a text. -/
def bytes (s : String) : List UInt8 := s.toUTF8.data.toList

lemma bytes_eq (s : String) : bytes s = s.toList.flatMap String.utf8EncodeChar := by
  have hencode : s.toList.utf8Encode = s.toUTF8 := String.utf8Encode_toList
  rw [bytes, ← hencode, List.utf8Encode, List.toList_data_toByteArray]

/-! ## Pieces of several bytes -/

section Pieces

variable {b n bits left lo hi : ℕ} {bs : List UInt8} {p : Pending}

lemma begin_two (h : 0xc2 ≤ b ∧ b < 0xe0) :
    begin b = ([], some ⟨b % 32, 1, 0x80, 0xbf⟩) := by
  have hlead : leadByte b = some (2, 0x80, 0xbf) := by
    unfold leadByte
    grind
  rw [begin, hlead]
  rfl

lemma begin_three (h : 0xe0 ≤ b ∧ b < 0xf0) :
    begin b = ([], some ⟨b % 16, 2, if b = 0xe0 then 0xa0 else 0x80,
      if b = 0xed then 0x9f else 0xbf⟩) := by
  have hlead : leadByte b =
      some (3, if b = 0xe0 then 0xa0 else 0x80, if b = 0xed then 0x9f else 0xbf) := by
    unfold leadByte
    grind
  rw [begin, hlead]
  rfl

lemma begin_four (h : 0xf0 ≤ b ∧ b ≤ 0xf4) :
    begin b = ([], some ⟨b % 8, 3, if b = 0xf0 then 0x90 else 0x80,
      if b = 0xf4 then 0x8f else 0xbf⟩) := by
  have hlead : leadByte b =
      some (4, if b = 0xf0 then 0x90 else 0x80, if b = 0xf4 then 0x8f else 0xbf) := by
    unfold leadByte
    grind
  rw [begin, hlead]
  rfl

lemma pieces_first (hn : n < 256) (h : begin n = ([], some p)) :
    pieces none (.ofNat n :: bs) = pieces (some p) bs := by
  rw [pieces, UInt8.toNat_ofNat_of_lt' hn, h]
  rfl

/-- A byte in the middle of a character. -/
lemma pieces_next (hn : n < 64) (hlo : lo ≤ n + 128) (hhi : n + 128 ≤ hi) :
    pieces (some ⟨bits, left + 2, lo, hi⟩) (.ofNat (n + 128) :: bs) =
      pieces (some ⟨bits * 64 + n, left + 1, 0x80, 0xbf⟩) bs := by
  rw [pieces, UInt8.toNat_ofNat_of_lt' (show n + 128 < 256 by omega), if_pos ⟨hlo, hhi⟩]
  dsimp only
  rw [if_neg (by omega), show (n + 128) % 64 = n by omega]
  rfl

/-- The last byte of a character. -/
lemma pieces_last (hn : n < 64) (hlo : lo ≤ n + 128) (hhi : n + 128 ≤ hi) :
    pieces (some ⟨bits, 1, lo, hi⟩) (.ofNat (n + 128) :: bs) =
      .char (.ofNat (bits * 64 + n)) :: pieces none bs := by
  rw [pieces, UInt8.toNat_ofNat_of_lt' (show n + 128 < 256 by omega), if_pos ⟨hlo, hhi⟩]
  dsimp only
  rw [if_pos rfl, show (n + 128) % 64 = n by omega]

end Pieces

/-! ## Characters -/

lemma pieces_encode (c : Char) (bs : List UInt8) :
    pieces none (String.utf8EncodeChar c ++ bs) = .char c :: pieces none bs := by
  have hvalid : c.val.toNat < 0xd800 ∨ 0xdfff < c.val.toNat ∧ c.val.toNat < 0x110000 := c.valid
  have hc : Char.ofNat c.val.toNat = c := Char.ofNat_toNat c
  unfold String.utf8EncodeChar
  dsimp only
  generalize c.val.toNat = v at hvalid hc ⊢
  -- the bounds on the second byte exclude what shorter forms and surrogates would give
  split
  · have hbegin : begin v = ([.char c], none) := by
      have hlead : leadByte v = some (1, 0, 0) := by
        rw [leadByte, if_pos (by omega)]
      rw [begin, hlead, ← hc]
      rfl
    rw [List.singleton_append, pieces, UInt8.toNat_ofNat_of_lt' (show v < 256 by omega), hbegin]
    rfl
  · split
    · rw [List.cons_append, pieces_first (by omega) (begin_two (by omega)), List.singleton_append,
        pieces_last (by omega) (by omega) (by omega),
        show (v / 64 % 32 + 192) % 32 * 64 + v % 64 = v by omega, hc]
    · split
      · rw [List.cons_append, pieces_first (by omega) (begin_three (by omega)), List.cons_append,
          pieces_next (by omega) (by split <;> omega) (by split <;> omega), List.singleton_append,
          pieces_last (by omega) (by omega) (by omega),
          show ((v / 4096 % 16 + 224) % 16 * 64 + v / 64 % 64) * 64 + v % 64 = v by omega, hc]
      · rw [List.cons_append, pieces_first (by omega) (begin_four (by omega)), List.cons_append,
          pieces_next (by omega) (by split <;> omega) (by split <;> omega), List.cons_append,
          pieces_next (by omega) (by omega) (by omega), List.singleton_append,
          pieces_last (by omega) (by omega) (by omega),
          show (((v / 262144 % 8 + 240) % 8 * 64 + v / 4096 % 64) * 64 + v / 64 % 64) * 64 +
            v % 64 = v by omega, hc]

lemma pieces_bytes (s : String) : pieces none (bytes s) = s.toList.map .char := by
  rw [bytes_eq]
  induction s.toList with
  | nil => rfl
  | cons c cs ih => rw [List.flatMap_cons, pieces_encode, ih, List.map_cons]

/-! ## Texts -/

theorem ofBytes?_bytes (s : String) : ofBytes? (bytes s) = some s := by
  have hchars : (s.toList.map Piece.char).mapM Piece.char? = some s.toList := by
    induction s.toList with
    | nil => rfl
    | cons c cs ih => simp [List.mapM_cons, ih, Piece.char?]
  rw [ofBytes?, pieces_bytes, hchars, Option.map_some, String.ofList_toList]

theorem ofBytesLossy_bytes (s : String) : ofBytesLossy (bytes s) = s := by
  have hchars : (s.toList.map Piece.char).map Piece.lossy = s.toList := by
    simp [Function.comp_def, Piece.lossy]
  rw [ofBytesLossy, pieces_bytes, hchars, String.ofList_toList]

end Punter.Text
