import Mathlib

/-! Lines ended by a two-symbol mark. The alphabet and the mark are parameters;
a line is clean when the mark's first symbol does not occur in it. -/

namespace Lines

variable {α : Type u} [DecidableEq α] (cr lf : α)

/-- The first line, without its mark, and what follows the mark. -/
def next : List α → Option (List α × List α)
  | [] => none
  | [_] => none
  | a :: b :: rest =>
    if a = cr ∧ b = lf then some ([], rest)
    else (next (b :: rest)).map (fun found => (a :: found.1, found.2))

/-- All complete lines, without their marks, and the unfinished end. -/
def split : List α → List (List α) × List α
  | [] => ([], [])
  | [a] => ([], [a])
  | a :: b :: rest =>
    if a = cr ∧ b = lf then ([] :: (split rest).1, (split rest).2)
    else match split (b :: rest) with
      | ([], tail) => ([], a :: tail)
      | (line :: lines, tail) => ((a :: line) :: lines, tail)

def close (line : List α) : List α := line ++ [cr, lf]

/-- Write lines one after the other, each with its mark. -/
def join (lines : List (List α)) : List α := lines.flatMap (close cr lf)

omit [DecidableEq α] in
@[simp] theorem join_nil : join cr lf [] = [] := rfl

omit [DecidableEq α] in
@[simp] theorem join_cons (line : List α) (lines : List (List α)) :
    join cr lf (line :: lines) = line ++ cr :: lf :: join cr lf lines := by
  simp [join, close]

omit [DecidableEq α] in
@[simp] theorem join_append (first rest : List (List α)) :
    join cr lf (first ++ rest) = join cr lf first ++ join cr lf rest := by
  simp [join]

variable {cr lf}

theorem next_clean {line : List α} (clean : cr ∉ line) (rest : List α) :
    next cr lf (line ++ cr :: lf :: rest) = some (line, rest) := by
  induction line with
  | nil => simp [next]
  | cons a line ih =>
    have different : a ≠ cr := fun same => clean (by simp [same])
    have ih := ih (fun member => clean (by simp [member]))
    cases line with
    | nil => simp [next, different]
    | cons b line => simpa [next, different] using ih

/-- A line that has arrived stays the first one, whatever arrives after it. -/
theorem next_append {text line rest : List α} (found : next cr lf text = some (line, rest)) (more : List α) :
    next cr lf (text ++ more) = some (line, rest ++ more) := by
  fun_induction next cr lf text generalizing line with
  | case1 => cases found
  | case2 a => cases found
  | case3 a b rest mark =>
    obtain ⟨rfl, rfl⟩ := mark
    cases found
    simp [next]
  | case4 a b rest other ih =>
    obtain ⟨⟨later, after⟩, earlier, same⟩ := Option.map_eq_some_iff.mp found
    cases same
    simpa [next, other] using ih earlier

/-- The first line with its mark, and the rest, are the text. -/
theorem next_join {text line rest : List α} (found : next cr lf text = some (line, rest)) : text = line ++ cr :: lf :: rest := by
  fun_induction next cr lf text generalizing line with
  | case1 => cases found
  | case2 a => cases found
  | case3 a b rest mark =>
    obtain ⟨rfl, rfl⟩ := mark
    cases found
    rfl
  | case4 a b rest other ih =>
    obtain ⟨⟨later, after⟩, earlier, same⟩ := Option.map_eq_some_iff.mp found
    cases same
    rw [ih earlier]
    rfl

/-- A text with a mark has a first line. -/
theorem next_mark (text rest : List α) : ∃ line more, next cr lf (text ++ cr :: lf :: rest) = some (line, more) := by
  induction text with
  | nil => exact ⟨[], rest, by simp [next]⟩
  | cons a text ih =>
    obtain ⟨line, more, found⟩ := ih
    cases text with
    | nil =>
      by_cases mark : a = cr ∧ cr = lf
      · exact ⟨[], lf :: rest, by simp [next, mark]⟩
      · exact ⟨a :: line, more, by simpa [next, mark] using found⟩
    | cons b text =>
      by_cases mark : a = cr ∧ b = lf
      · exact ⟨[], text ++ cr :: lf :: rest, by simp [next, mark]⟩
      · exact ⟨a :: line, more, by simpa [next, mark] using found⟩

theorem split_clean {line : List α} (clean : cr ∉ line) (rest : List α) :
    split cr lf (line ++ cr :: lf :: rest) = (line :: (split cr lf rest).1, (split cr lf rest).2) := by
  induction line with
  | nil => simp [split]
  | cons a line ih =>
    have different : a ≠ cr := fun same => clean (by simp [same])
    have ih := ih (fun member => clean (by simp [member]))
    cases line with
    | nil => simp [split, different]
    | cons b line =>
      simp only [List.cons_append] at ih ⊢
      simp [split, different, ih]

/-- Splitting undoes joining, and starts afresh after the last mark. -/
theorem split_join {lines : List (List α)} (clean : ∀ line ∈ lines, cr ∉ line) (rest : List α) :
    split cr lf (join cr lf lines ++ rest) = (lines ++ (split cr lf rest).1, (split cr lf rest).2) := by
  induction lines with
  | nil => simp
  | cons line lines ih =>
    have ih := ih (fun other member => clean other (by simp [member]))
    simp only [join_cons, List.append_assoc, List.cons_append]
    rw [split_clean (clean line (by simp)), ih]

theorem split_join_all {lines : List (List α)} (clean : ∀ line ∈ lines, cr ∉ line) :
    split cr lf (join cr lf lines) = (lines, []) := by
  simpa [split] using split_join clean []

variable (cr lf) in
/-- Joining undoes splitting. -/
theorem join_split (text : List α) : join cr lf (split cr lf text).1 ++ (split cr lf text).2 = text := by
  fun_induction split cr lf text with
  | case1 => rfl
  | case2 a => rfl
  | case3 a b rest mark ih =>
    obtain ⟨rfl, rfl⟩ := mark
    simpa using ih
  | case4 a b rest other tail found ih =>
    simpa [found] using ih
  | case5 a b rest other line lines tail found ih =>
    simpa [found] using ih

variable (cr lf) in
/-- A text that holds no mark. It may hold either symbol of it. -/
def Whole (text : List α) : Prop := ¬ [cr, lf] <:+: text

instance (text : List α) : Decidable (Whole cr lf text) := inferInstanceAs (Decidable (¬ _))

omit [DecidableEq α] in
@[simp] theorem whole_nil : Whole cr lf [] := by simp [Whole]

omit [DecidableEq α] in
theorem whole_cons {a : α} {text : List α} : Whole cr lf (a :: text) ↔ ¬ (a = cr ∧ text.head? = some lf) ∧ Whole cr lf text := by
  rw [Whole, List.infix_cons_iff, not_or, List.cons_prefix_cons]
  cases text with
  | nil => simp [Whole]
  | cons b text => simp [Whole, eq_comm]

omit [DecidableEq α] in
theorem whole_clean {text : List α} (clean : cr ∉ text) : Whole cr lf text :=
  fun inside => clean (inside.subset (List.mem_cons_self ..))

omit [DecidableEq α] in
/-- In front of a symbol that cannot end a mark, texts are whole each on its own. -/
theorem whole_append_cons {first : List α} {a : α} (other : a ≠ lf) (rest : List α) :
    Whole cr lf (first ++ a :: rest) ↔ Whole cr lf first ∧ Whole cr lf (a :: rest) := by
  induction first with
  | nil => simp
  | cons b first ih =>
    rw [List.cons_append, whole_cons, whole_cons, ih, and_assoc]
    cases first with
    | nil => simp [other]
    | cons c first => simp

omit [DecidableEq α] in
theorem whole_append_separator {first : List α} {a : α} (unlikeFirst : a ≠ cr) (unlikeSecond : a ≠ lf) (rest : List α) :
    Whole cr lf (first ++ a :: rest) ↔ Whole cr lf first ∧ Whole cr lf rest := by
  rw [whole_append_cons unlikeSecond, whole_cons (a := a)]
  simp [unlikeFirst]

omit [DecidableEq α] in
theorem whole_clean_append {first : List α} (clean : cr ∉ first) (rest : List α) :
    Whole cr lf (first ++ rest) ↔ Whole cr lf rest := by
  induction first with
  | nil => rfl
  | cons a first ih =>
    have different : a ≠ cr := fun same => clean (by simp [same])
    rw [List.cons_append, whole_cons, ih (fun member => clean (List.mem_cons_of_mem _ member))]
    simp [different]

theorem next_whole {line : List α} (apart : cr ≠ lf) (whole : Whole cr lf line) (rest : List α) :
    next cr lf (line ++ cr :: lf :: rest) = some (line, rest) := by
  induction line with
  | nil => simp [next]
  | cons a line ih =>
    obtain ⟨unmarked, whole⟩ := whole_cons.mp whole
    have ih := ih whole
    cases line with
    | nil => simp [next, apart]
    | cons b line =>
      have unmarked : ¬ (a = cr ∧ b = lf) := by simpa using unmarked
      simpa [next, unmarked] using ih

theorem split_whole {line : List α} (apart : cr ≠ lf) (whole : Whole cr lf line) (rest : List α) :
    split cr lf (line ++ cr :: lf :: rest) = (line :: (split cr lf rest).1, (split cr lf rest).2) := by
  induction line with
  | nil => simp [split]
  | cons a line ih =>
    obtain ⟨unmarked, whole⟩ := whole_cons.mp whole
    have ih := ih whole
    cases line with
    | nil => simp [split, apart]
    | cons b line =>
      have unmarked : ¬ (a = cr ∧ b = lf) := by simpa using unmarked
      simp only [List.cons_append] at ih ⊢
      simp [split, unmarked, ih]

theorem split_join_whole {lines : List (List α)} (apart : cr ≠ lf) (whole : ∀ line ∈ lines, Whole cr lf line)
    (rest : List α) :
    split cr lf (join cr lf lines ++ rest) = (lines ++ (split cr lf rest).1, (split cr lf rest).2) := by
  induction lines with
  | nil => simp
  | cons line lines ih =>
    have ih := ih (fun other member => whole other (List.mem_cons_of_mem _ member))
    simp only [join_cons, List.append_assoc, List.cons_append]
    rw [split_whole apart (whole line (List.mem_cons_self ..)), ih]

variable (cr lf) in
/-- What lies between two marks holds none. -/
theorem whole_of_split (text : List α) : ∀ line ∈ (split cr lf text).1, Whole cr lf line := by
  fun_induction split cr lf text with
  | case1 => simp
  | case2 a => simp
  | case3 a b rest mark ih => simpa using ih
  | case4 a b rest other tail found ih => simp
  | case5 a b rest other line lines tail found ih =>
    rw [found] at ih
    obtain ⟨first, later⟩ := List.forall_mem_cons.mp ih
    refine List.forall_mem_cons.mpr ⟨whole_cons.mpr ⟨fun ⟨starts, ends⟩ => ?_, first⟩, later⟩
    obtain ⟨line, rfl⟩ := List.head?_eq_some_iff.mp ends
    have covers : join cr lf (split cr lf (b :: rest)).1 ++ (split cr lf (b :: rest)).2 = b :: rest := join_split cr lf _
    rw [found] at covers
    simp only [join_cons, List.cons_append, List.cons.injEq] at covers
    exact other ⟨starts, covers.1.symm⟩

variable (cr lf) in
/-- The unfinished end holds none either. -/
theorem whole_tail (text : List α) : Whole cr lf (split cr lf text).2 := by
  fun_induction split cr lf text with
  | case1 => exact whole_nil
  | case2 a => simp [whole_cons]
  | case3 a b rest mark ih => exact ih
  | case4 a b rest other tail found ih =>
    rw [found] at ih
    have covers : join cr lf (split cr lf (b :: rest)).1 ++ (split cr lf (b :: rest)).2 = b :: rest := join_split cr lf _
    rw [found] at covers
    obtain rfl : tail = b :: rest := covers
    exact whole_cons.mpr ⟨fun ⟨starts, ends⟩ => other ⟨starts, Option.some.inj ends⟩, ih⟩
  | case5 a b rest other line lines tail found ih =>
    rw [found] at ih
    exact ih

/-- A mark ends a line, whatever stands before it. -/
theorem split_mark (apart : cr ≠ lf) (text rest : List α) :
    ∃ lines, (∀ line ∈ lines, Whole cr lf line) ∧
      split cr lf (text ++ cr :: lf :: rest) = (lines ++ (split cr lf rest).1, (split cr lf rest).2) := by
  refine ⟨(split cr lf text).1 ++ [(split cr lf text).2], ?_, ?_⟩
  · exact List.forall_mem_append.mpr ⟨whole_of_split cr lf text, List.forall_mem_singleton.mpr (whole_tail cr lf text)⟩
  · conv_lhs => rw [← join_split cr lf text]
    rw [List.append_assoc, split_join_whole apart (whole_of_split cr lf text), split_whole apart (whole_tail cr lf text)]
    simp

end Lines
