import Post2Usenet.Proofs.YencRoundTrip

/-! What earlier calls do to later ones. A last part that is shorter than the others
leaves the stream failed, and nothing clears it. -/

namespace Post2Usenet.Proofs.YencHistory
open Yenc Yencgenerator YencRoundTrip

variable (crc32 : Bytes → UInt32) {file : File} {articlesize linesize : Nat} {generator : Yencgenerator} {partnumber : Nat}

/-- What a generator that was not asked before returns, or none when it throws. -/
def fresh (file : File) (articlesize linesize partnumber : Nat) : Option Bytes :=
  ((make file articlesize linesize).getPart crc32 partnumber).1

def Failed (generator : Yencgenerator) : Prop := generator.file.failbit = true

/-- The part after which the stream is at its end. -/
def lastPart (file : File) (articlesize : Nat) : Nat := Slices.count file.content.length articlesize - 1

/-- A good stream stays good, or fails with the short part. -/
theorem getPart_leaves (serves : Serves file articlesize linesize generator) (good : Good generator)
    (positive : 0 < articlesize) (reserved : articlesize ≤ largestArticle)
    (inside : partnumber < Slices.count file.content.length articlesize) :
    (generator.getPart crc32 partnumber).1 = fresh crc32 file articlesize linesize partnumber ∧
      Serves file articlesize linesize (generator.getPart crc32 partnumber).2 ∧
      if (Slices.slice file.content articlesize partnumber).length < articlesize then
        Failed (generator.getPart crc32 partnumber).2
      else Good (generator.getPart crc32 partnumber).2 := by
  obtain ⟨text, later, -⟩ := getPart_serves crc32 serves good positive reserved inside
  obtain ⟨freshText, -, -⟩ :=
    getPart_serves crc32 (make_serves : Serves file articlesize linesize _) ⟨rfl, rfl⟩ positive reserved inside
  refine ⟨text.trans freshText.symm, later, ?_⟩
  obtain ⟨start, -⟩ := part_fits positive inside
  have offset : sizeT (partnumber * articlesize) = partnumber * articlesize :=
    sizeT_eq (Nat.lt_trans start file.size_fits)
  have size : generator.articlesize = articlesize := by rw [serves.settings]; rfl
  obtain ⟨notEof, notFail⟩ := good
  simp only [getPart, fillBuffer, reserved_iff, size, if_pos reserved, offset, Ifstream.seekg, Ifstream.read, notFail, Bool.or_self,
    Bool.false_eq_true, ite_false, serves.content, Slices.slice]
  split
  next short => simpa [Failed] using short
  next full => simpa [Good] using full

/-- A failed stream reads nothing, whatever part is asked for. -/
theorem getPart_failed (serves : Serves file articlesize linesize generator) (failed : Failed generator)
    (reserved : articlesize ≤ largestArticle) (partnumber : Nat) : (generator.getPart crc32 partnumber).1 =
      some (partText crc32 (make file articlesize linesize) partnumber (sizeT (partnumber * articlesize)) []) := by
  have size : generator.articlesize = articlesize := by rw [serves.settings]; rfl
  have line : generator.linesize = (make file articlesize linesize).linesize := by rw [serves.settings]
  have opening : generator.ybegin partnumber = (make file articlesize linesize).ybegin partnumber := by
    rw [serves.settings]; rfl
  simp only [Failed] at failed
  simp only [getPart, fillBuffer, reserved_iff, size, if_pos reserved, line, opening, Ifstream.seekg, failed, ite_true, Ifstream.read,
    Bool.false_or, Option.map_some, partText]

/-- The second line of a part says how many bytes were read. -/
theorem partText_extent {partOffset : Nat} {buf : Bytes} (fits : partOffset + buf.length < 2 ^ 64)
    (same : partText crc32 generator partnumber partOffset [] = partText crc32 generator partnumber partOffset buf) :
    buf = [] := by
  have second (read : Nat) (rest : Bytes) :
      Lines.next cr lf (ypart partOffset read ++ cr :: lf :: rest) = some (ypart partOffset read, rest) :=
    Lines.next_clean (ypart_inline partOffset read).1 rest
  simp only [partText, crlf, List.append_assoc, List.append_cancel_left_eq, List.cons_append, List.nil_append,
    List.cons.injEq, true_and] at same
  have lines := (second _ _).symm.trans (same ▸ second _ _)
  simp only [Option.some.injEq, Prod.mk.injEq] at lines
  have extents : readPart (ypart partOffset ([] : Bytes).length) = readPart (ypart partOffset buf.length) :=
    congrArg readPart lines.1.symm
  rw [readPart_ypart, readPart_ypart, List.length_nil, Nat.add_zero, sizeT_eq fits] at extents
  simp only [Option.some.injEq, Yenc.Part.mk.injEq, true_and] at extents
  rw [sizeT_eq (by omega)] at extents
  exact List.eq_nil_of_length_eq_zero (by omega)

/-- A part that is asked of a failed stream is not the part of a fresh generator. -/
theorem failed_differs (serves : Serves file articlesize linesize generator) (failed : Failed generator)
    (positive : 0 < articlesize) (reserved : articlesize ≤ largestArticle)
    (inside : partnumber < Slices.count file.content.length articlesize) :
    (generator.getPart crc32 partnumber).1 ≠ fresh crc32 file articlesize linesize partnumber := by
  intro same
  obtain ⟨start, -⟩ := part_fits positive inside
  have fits := file.size_fits
  have length := Slices.slice_length file.content articlesize partnumber
  obtain ⟨text, -, -⟩ :=
    getPart_serves crc32 (make_serves : Serves file articlesize linesize _) ⟨rfl, rfl⟩ positive reserved inside
  rw [getPart_failed crc32 serves failed reserved, fresh, text, sizeT_eq (by omega), Option.some.injEq] at same
  have empty := partText_extent crc32 (by omega) same
  rw [empty, List.length_nil] at length
  omega

/-- While the stream is good, the calls return what fresh generators would as long as only the
last of them may leave the stream failed. -/
theorem getParts_fresh (serves : Serves file articlesize linesize generator) (good : Good generator)
    (positive : 0 < articlesize) (reserved : articlesize ≤ largestArticle) (calls : List Nat)
    (inside : ∀ partnumber ∈ calls, partnumber < Slices.count file.content.length articlesize) :
    (generator.getParts crc32 calls).1 = calls.map (fresh crc32 file articlesize linesize) ↔
      file.content.length % articlesize = 0 ∨ lastPart file articlesize ∉ calls.dropLast := by
  induction calls generalizing generator with
  | nil => simp [getParts]
  | cons partnumber rest ih =>
    have here := inside partnumber (List.mem_cons_self ..)
    have later := fun other member => inside other (List.mem_cons_of_mem _ member)
    obtain ⟨text, nextServes, left⟩ := getPart_leaves crc32 serves good positive reserved here
    have short := Slices.slice_short positive here
    simp only [getParts, List.map_cons, text, List.cons.injEq, true_and]
    cases rest with
    | nil => simp [getParts]
    | cons next rest =>
      rw [List.dropLast_cons_of_ne_nil (List.cons_ne_nil _ _), List.mem_cons, not_or]
      by_cases exhausted : (Slices.slice file.content articlesize partnumber).length < articlesize
      · rw [if_pos exhausted] at left
        obtain ⟨odd, last⟩ := short.mp exhausted
        have differs := failed_differs crc32 nextServes left positive reserved (later next (List.mem_cons_self ..))
        have first : lastPart file articlesize = partnumber := last.symm
        simp only [getParts, List.map_cons, List.cons.injEq, differs, false_and, odd, first, not_true, or_self]
      · rw [if_neg exhausted] at left
        rw [ih nextServes left later]
        by_cases even : file.content.length % articlesize = 0
        · simp only [even, true_or]
        · have other : lastPart file articlesize ≠ partnumber := fun last => exhausted (short.mpr ⟨even, last.symm⟩)
          simp only [even, false_or, other, not_false_eq_true, true_and]

/-- A generator that cannot reserve its buffers throws at every call, like a fresh one. -/
theorem getParts_throws (exceeds : largestArticle < articlesize) (same : generator.articlesize = articlesize) (calls : List Nat) :
    (generator.getParts crc32 calls).1 = calls.map (fresh crc32 file articlesize linesize) := by
  induction calls generalizing generator with
  | nil => rfl
  | cons partnumber rest ih =>
    have kept : (generator.getPart crc32 partnumber).2.articlesize = articlesize := same
    have first := getPart_throws crc32 generator partnumber (same ▸ exceeds)
    have again := getPart_throws crc32 (make file articlesize linesize) partnumber exceeds
    simp only [getParts, List.map_cons, ih kept, fresh, first, again]

/-- Calls do not depend on the ones before them precisely when none of them gets as far as
reading, the article size divides the file's size, or the last part is asked for by the last
call at most. -/
theorem getParts_fresh_iff (positive : 0 < articlesize) (calls : List Nat)
    (inside : ∀ partnumber ∈ calls, partnumber < (make file articlesize linesize).numParts) :
    ((make file articlesize linesize).getParts crc32 calls).1 = calls.map (fresh crc32 file articlesize linesize) ↔
      largestArticle < articlesize ∨ file.content.length % articlesize = 0 ∨
        (make file articlesize linesize).numParts - 1 ∉ calls.dropLast := by
  rcases Nat.lt_or_ge largestArticle articlesize with exceeds | reserved
  · exact iff_of_true (getParts_throws crc32 exceeds rfl calls) (.inl exceeds)
  · rw [numParts_make] at inside ⊢
    rw [getParts_fresh crc32 make_serves ⟨rfl, rfl⟩ positive reserved calls inside]
    simp only [Nat.not_lt_of_le reserved, false_or, lastPart]

private def odd : File := ⟨ascii "b.bin", [1, 2, 3, 4, 5], by decide⟩

theorem odd_ascending : ((make odd 2 128).getParts crc32Type [1, 0, 1, 2]).1 =
    [1, 0, 1, 2].map (fresh crc32Type odd 2 128) :=
  (getParts_fresh_iff crc32Type (by decide) [1, 0, 1, 2] (by decide)).mpr (.inr (.inr (by decide)))

/-- Asked for after the short last part, the first part comes without its bytes. -/
theorem odd_repeated : ((make odd 2 128).getParts crc32Type [2, 0]).1 ≠ [2, 0].map (fresh crc32Type odd 2 128) := by
  decide +kernel

end Post2Usenet.Proofs.YencHistory
