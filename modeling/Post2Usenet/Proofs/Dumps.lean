import Post2Usenet.Proofs.Startups

/-! What is left of a piece when the program gives up on it. The file that it leaves is an
article like any other, and a reader finds the piece in it. -/

namespace Post2Usenet.Proofs.Dumps
open Connection Main MainRun MainSteps Nntp Yenc Yencgenerator YencRoundTrip ArticleFraming PieceArticles PoolSteps Downloads
  Startups

variable {crc32 : Bytes → UInt32} {eraseRule : EraseRule} {launch : Launch} {main : Main}

theorem dumpfile_wire {article : Article} (filled : article.payload ≠ []) :
    dumpfile article = some (article.header.msgid ++ ascii ".dump", article.wire) := by
  have length : article.payload.length ≠ 0 := fun none => filled (List.length_eq_zero_iff.mp none)
  rw [dumpfile, if_neg length]
  rfl

/-- The step that exits is a callback with an article at hand. -/
theorem exits_failing {after : Main} {event : Main.Event} (taken : main.step crc32 launch event = some after)
    (exited : after.position = .exited) : ∃ thread msg, headTask after.usenet thread = some (.slotPostFailed msg) ∧
      after.dump = dumpfile (after.usenet.articles msg) := by
  have going := going_ongoing (step_going taken)
  have stepped := step_cases taken
  cases stepped with
  | advance =>
    simp only [Main.step, step_going taken, Bool.false_eq_true, if_false] at taken
    cases advance_goes taken with
    | allPosted =>
      dsimp only at exited
      split at exited <;> cases exited
    | _ => cases exited
  | take | expire => exact absurd exited going
  | throws | write => cases exited
  | @proceed thread outcome wake nonces after proceeds =>
    cases proceeds with
    | exits head => exact ⟨thread, _, head, rfl⟩
    | requeues | finishes | plain => exact absurd exited going

private def unluckySystem : FileSystem where
  find _ := .regular [17, 31, 45] (by decide)
  filename path := path
  append _ file := file

private def unluckyConfig : LoadedConfig where
  toProgConfig := sampleLaunch.cfg
  raw := false
  files := [ascii "o.bin"]

private def unluckyLaunch : Launch :=
  { sampleLaunch with
    postitems := Fileset.addFile ⟨2, []⟩ ⟨ascii "o.bin", [17, 31, 45], by decide⟩
    single := rfl
    files_fit := by decide
    pieces_fit := by decide }

private theorem unlucky_prepared : unluckySystem.prepare unluckyConfig = some (unluckyLaunch.cfg, unluckyLaunch.postitems) := rfl

end Post2Usenet.Proofs.Dumps
