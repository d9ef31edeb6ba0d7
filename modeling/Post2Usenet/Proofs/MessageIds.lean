import Post2Usenet.Posting

/-! The texts that name a piece. A message id leads back to the piece, and a subject
adds nothing to the two texts it is made from that a line or an attribute could not hold. -/

namespace Post2Usenet.Proofs.MessageIds
open Fileset

theorem not_mem_decimal {byte : UInt8} (other : Numeral.isDigit 10 byte = false) (n : Nat) : byte ∉ decimal n :=
  Numeral.not_mem_print (by decide) (by decide) other n

private theorem cut_at {text : Bytes} {byte : UInt8} (absent : byte ∉ text) (rest : Bytes) :
    (text ++ byte :: rest).takeWhile (· ≠ byte) = text ∧ (text ++ byte :: rest).dropWhile (· ≠ byte) = byte :: rest := by
  have other : ∀ inside ∈ text, decide (inside ≠ byte) = true :=
    fun inside member => decide_eq_true (ne_of_mem_of_not_mem member absent)
  constructor
  · rw [List.takeWhile_append_of_pos other]
    simp
  · rw [List.dropWhile_append_of_pos other]
    simp

/-- A digit is no space and no sign. -/
theorem digit_bounds {byte : UInt8} (digit : Numeral.isDigit 10 byte = true) : 48 ≤ byte ∧ byte ≤ 57 := by
  simp only [Numeral.isDigit, Numeral.digitValue] at digit
  split at digit
  next value found =>
    split at found
    · assumption
    · split at found
      next letter =>
        cases found
        have lower : 65 ≤ byte.toNat := letter.1
        simp only [decide_eq_true_eq] at digit
        omega
      · cases found
  · cases digit

theorem stoul_decimal {n : Nat} (fits : n < 2 ^ 64) : stoul (decimal n) = some n := by
  have digits := Numeral.print_digits (by decide : 1 < 10) (by decide) n
  have back : Numeral.read 10 (decimal n) = some (n, []) := by
    simpa [decimal] using Numeral.read_print (by decide : 1 < 10) (by decide) n [] nofun
  cases printed : decimal n with
  | nil => exact absurd printed (Numeral.print_ne_nil 10 n)
  | cons first rest =>
    have bounds := digit_bounds (digits first (by rw [← decimal, printed]; exact List.mem_cons_self ..))
    have blank : (first == 32 || (decide (9 ≤ first) && decide (first ≤ 13))) = false := by
      have notSpace : first ≠ 32 := by
        rintro rfl
        exact absurd bounds.1 (by decide)
      have notControl : ¬ first ≤ 13 := fun below => absurd (UInt8.le_trans bounds.1 below) (by decide)
      simp [notSpace, notControl]
    rw [stoul, List.dropWhile_cons_of_neg (by simp [blank])]
    split
    next same =>
      cases same
      exact absurd bounds.1 (by decide)
    next same =>
      cases same
      exact absurd bounds.1 (by decide)
    · simp only [← printed, back, Option.bind_some, if_pos fits]

/-- A byte that is printed as it is, and is no ampersand. -/
def PlainByte (byte : UInt8) : Prop := 32 ≤ byte ∧ byte < 127 ∧ byte ≠ 38

instance (byte : UInt8) : Decidable (PlainByte byte) := inferInstanceAs (Decidable (_ ∧ _ ∧ _))

private theorem plain_literal {text : Bytes} (all : text.all (fun byte => PlainByte byte) = true) :
    ∀ byte ∈ text, PlainByte byte :=
  fun byte member => of_decide_eq_true (List.all_eq_true.mp all byte member)

theorem plain_decimal (n : Nat) : ∀ byte ∈ decimal n, PlainByte byte := by
  intro byte member
  obtain ⟨low, high⟩ := digit_bounds (Numeral.print_digits (by decide) (by decide) n byte member)
  refine ⟨UInt8.le_trans (by decide) low, UInt8.lt_of_le_of_lt high (by decide), ?_⟩
  rintro rfl
  exact absurd low (by decide)

/-- Where the two texts of a subject are, and what stands around them. -/
theorem getUsenetSubject_some {postitems : Fileset} {opening subject name : Bytes} {fileIndex pieceIndex : Nat}
    (found : postitems.getUsenetSubject opening fileIndex pieceIndex = some subject)
    (named : postitems.getFileName fileIndex = some name) :
    ∃ position ending, (∀ byte ∈ position, PlainByte byte) ∧ (∀ byte ∈ ending, PlainByte byte) ∧
      subject = opening ++ 32 :: (position ++ (name ++ 34 :: ending)) := by
  obtain ⟨same, again, rest⟩ := Option.bind_eq_some_iff.mp found
  cases Option.some.inj (named.symm.trans again)
  obtain ⟨pieces, -, same⟩ := Option.bind_eq_some_iff.mp rest
  cases same
  refine ⟨ascii "[" ++ decimal (sizeT (fileIndex + 1)) ++ ascii "/" ++ decimal postitems.getNumFiles ++ ascii "] - \"",
    ascii " yEnc (" ++ decimal (sizeT (pieceIndex + 1)) ++ ascii "/" ++ decimal pieces ++ ascii ")", ?_, ?_, ?_⟩
  · simp only [List.forall_mem_append]
    exact ⟨⟨⟨⟨plain_literal rfl, plain_decimal _⟩, plain_literal rfl⟩, plain_decimal _⟩, plain_literal rfl⟩
  · simp only [List.forall_mem_append]
    exact ⟨⟨⟨⟨plain_literal rfl, plain_decimal _⟩, plain_literal rfl⟩, plain_decimal _⟩, plain_literal rfl⟩
  · simp [ascii]

theorem getKeyFromMessageId_getUsenetMessageId {nonce : Bytes} {length fileIndex pieceIndex : Nat}
    (drawn : RunNonce length nonce) (fileFits : fileIndex < 2 ^ 64) (pieceFits : pieceIndex < 2 ^ 64) (domain : Bytes) :
    getKeyFromMessageId (getUsenetMessageId nonce domain fileIndex pieceIndex) = some ⟨fileIndex, pieceIndex⟩ := by
  have noDot : (46 : UInt8) ∉ ascii "<" ++ nonce := by
    simpa [ascii] using drawn.not_mem (by decide : (46 : UInt8) ∉ choices)
  have shape : getUsenetMessageId nonce domain fileIndex pieceIndex =
      (ascii "<" ++ nonce) ++ 46 :: (decimal fileIndex ++ 46 :: (decimal pieceIndex ++ 64 :: (domain ++ ascii ">"))) := by
    simp [getUsenetMessageId, ascii]
  obtain ⟨-, afterNonce⟩ := cut_at noDot (decimal fileIndex ++ 46 :: (decimal pieceIndex ++ 64 :: (domain ++ ascii ">")))
  have noDotInFile : (46 : UInt8) ∉ decimal fileIndex := not_mem_decimal rfl fileIndex
  have noAtInPiece : (64 : UInt8) ∉ decimal pieceIndex := not_mem_decimal rfl pieceIndex
  obtain ⟨file, afterFile⟩ := cut_at noDotInFile (decimal pieceIndex ++ 64 :: (domain ++ ascii ">"))
  obtain ⟨piece, -⟩ := cut_at noAtInPiece (domain ++ ascii ">")
  rw [shape, getKeyFromMessageId, afterNonce]
  simp only [afterFile, file, piece, stoul_decimal fileFits, stoul_decimal pieceFits]
  rfl

/-- What follows the nonce is found again, so the nonce is as well. -/
theorem getUsenetMessageId_injective {nonce other domain : Bytes} {length otherLength fileIndex pieceIndex : Nat}
    {otherFile otherPiece : Nat} (drawn : RunNonce length nonce) (otherDrawn : RunNonce otherLength other)
    (fileFits : fileIndex < 2 ^ 64) (pieceFits : pieceIndex < 2 ^ 64)
    (otherFileFits : otherFile < 2 ^ 64) (otherPieceFits : otherPiece < 2 ^ 64)
    (same : getUsenetMessageId nonce domain fileIndex pieceIndex = getUsenetMessageId other domain otherFile otherPiece) :
    nonce = other ∧ fileIndex = otherFile ∧ pieceIndex = otherPiece := by
  have first := getKeyFromMessageId_getUsenetMessageId drawn fileFits pieceFits domain
  have second := getKeyFromMessageId_getUsenetMessageId otherDrawn otherFileFits otherPieceFits domain
  rw [same] at first
  cases Option.some.inj (first.symm.trans second)
  refine ⟨?_, rfl, rfl⟩
  simpa [getUsenetMessageId] using same

end Post2Usenet.Proofs.MessageIds
