import Post2Usenet.Lib.Machine
import Post2Usenet.Proofs.ConnectionSteps
import Post2Usenet.Session

/-! A connection and its server stay in step: each status line the connection reads
answers what it has written last, and an article is written only to a server that
waits for one. The exceptions are an answer to `POST` that starts neither with a three
nor with a four, and what is written as one question and is none, or more than one. -/

namespace Post2Usenet.Proofs.SessionSync
open Connection ConnectionSteps Session Nntp

/-- What the client has been sent and not looked at yet. -/
def input (session : Session) : Bytes := session.connection.readbuf ++ session.incoming

/-- The server has not answered yet: it has some text to read first, which is its question, and
then this is left. -/
inductive Owed : Mode → Bytes → Bytes → Bytes → (Bytes → Mode) → Prop
  | greeting {outgoing : Bytes} : Owed .greeting outgoing [] outgoing (fun _ => .command)
  | command {outgoing line rest : Bytes} (found : Lines.next cr lf outgoing = some (line, rest)) :
      Owed .command outgoing (line ++ crlf) rest (Mode.afterCommand line)
  | article {received rest : Bytes} {lines : List Bytes} (whole : ∀ line ∈ lines, Lines.Whole cr lf line ∧ line ≠ terminator) :
      Owed (.article received) (Lines.join cr lf (lines ++ [terminator]) ++ rest)
        (received ++ Lines.join cr lf (lines ++ [terminator])) rest (fun _ => .command)

/-- The client waits for the answer to its question, which is one line and after which
the server is in a known mode. -/
inductive Awaits (session : Session) (next : Bytes → Mode) : Prop
  | owed (owes : Owed session.mode session.outgoing session.asked [] next) (empty : input session = [])
      (same : session.answered = session.consumed)
  | answered {line : Bytes} (single : Lines.next cr lf (line ++ crlf) = some (line, []))
      (arrived : input session = line ++ crlf) (done : session.outgoing = []) (mode : session.mode = next line)
      (greeted : session.mode ≠ .greeting)
      (ahead : session.answered = session.consumed ++ [(session.asked, line ++ crlf)])

/-- What the client has written is not what the server answers to first. -/
inductive Muddled (session : Session) : Prop
  | owed {question rest : Bytes} {next : Bytes → Mode} (owes : Owed session.mode session.outgoing question rest next)
      (other : question ≠ session.asked) (empty : input session = []) (same : session.answered = session.consumed)
  | answered {question line : Bytes} {rest : List (Bytes × Bytes)} (other : question ≠ session.asked)
      (ahead : session.answered = session.consumed ++ (question, line) :: rest)

/-- One command, to a server that reads lines. -/
def OneLine (text : Bytes) : Prop := ∃ line, Lines.next cr lf text = some (line, [])

/-- One article, to a server that reads as far as the first terminator. -/
def OneArticle (text : Bytes) : Prop := ∃ lines, Lines.split cr lf text = (lines ++ [terminator], []) ∧ terminator ∉ lines

/-- The client waits for the answer to a text that should be one question. -/
def Awaited (session : Session) (asks : Bytes → Prop) (next : Bytes → Mode) : Prop :=
  asks session.asked ∧ Awaits session next ∨ ¬ asks session.asked ∧ Muddled session

/-- Nothing is in flight. -/
structure Rests (session : Session) (mode : Mode) : Prop where
  mode : session.mode = mode
  done : session.outgoing = []
  empty : input session = []
  same : session.answered = session.consumed

/-- What the wire looks like while a handler is pending. After an error, or when
posting is not permitted, the connection is closed, and it does not matter. -/
def Wire (session : Session) : Option (Handler Article) → Prop
  | some (.stage .doConnect) | some (.stage .resolved) | some (.stage .connected) => Rests session .absent
  | some (.stage .handshaken) | some (.stage .greeted) => Awaits session (fun _ => .command)
  | some (.stage .usernameWritten) | some (.stage .usernameAnswered) => Awaited session OneLine (fun _ => .command)
  | some (.stage .passwordWritten) | some (.stage .passwordAnswered) => Awaited session OneLine (fun _ => .command)
  | some (.stage .postWritten) | some (.stage .postAnswered) => Awaited session OneLine (Mode.afterCommand (ascii "POST"))
  | some (.stage .articleWritten) | some (.stage .articleAnswered) =>
    Awaited session OneArticle (fun _ => .command) ∧
      ∀ article, session.connection.article = some article → session.asked = article.wire
  | some (.stage .statWritten) | some (.stage .statAnswered) => Awaited session OneLine (fun _ => .command)
  | some (.stage .doPost) | some (.stage .doStat) => Rests session .command
  | some (.stage .quitWritten) | some .timer => False
  | some (.connectHandler .connectSuccess) => Rests session .command
  | some (.connectHandler _) => session.connection.state ≠ .connectedAndAuthenticated
  | some (.postHandler _ .postSuccess) | some (.postHandler _ .postFailure) => Rests session .command
  | some (.postHandler _ _) => True
  | some (.statHandler _ .connectionError) => True
  | some (.statHandler _ _) => Rests session .command
  | none => session.connection.state = .connectedAndAuthenticated → Rests session .command

/-- The server accepted an article. -/
def Accepted (session : Session) (article : Article) : Prop :=
  ∃ line, (article.wire, line) ∈ session.answered ∧ line.head? = some 50

/-- The client and the server are in step. -/
structure InStep (session : Session) : Prop where
  expected : session.strayed = false
  matched : session.consumed <+: session.answered
  earned : ∀ article, (article, .postSuccess) ∈ session.reports → Accepted session article

/-- What the connection has written is one question of the kind that it reads the answer to. -/
def Asks : Stage → Bytes → Prop
  | .greeted, _ => True
  | .articleAnswered, text => OneArticle text
  | _, text => OneLine text

/-- The steps that read a line although what was written was not one question, or in which
`do_post` reads a line that is neither a refusal nor a request for the article. -/
def Misreads (session : Session) : Event → Prop
  | .complete outcome => ∃ stage line, session.pending = some (.stage stage) ∧ reads stage = true ∧
      (session.connection.receiveLine outcome).1 = some line ∧
      (¬ Asks stage session.asked ∨ stage = .postAnswered ∧ line.head? ≠ some 51 ∧ line.head? ≠ some 52)
  | _ => False

structure Synced (session : Session) : Prop where
  wire : Wire session session.pending
  fits : ∀ handler, session.pending = some handler → Fits session.connection handler
  free : session.pending = none → session.connection.article = none
  matched : session.consumed <+: session.answered
  bound : ∀ article, session.pending = some (.postHandler article .postSuccess) → Accepted session article
  earned : ∀ article, (article, .postSuccess) ∈ session.reports → Accepted session article

theorem next_closed {line : Bytes} (clean : cr ∉ line) : Lines.next cr lf (line ++ crlf) = some (line, []) :=
  Lines.next_clean clean []

theorem next_terminator (rest : Bytes) :
    Lines.next cr lf (Lines.join cr lf [terminator] ++ rest) = some (terminator, rest) := by
  have clean : cr ∉ terminator := by decide
  exact Lines.next_clean clean rest

theorem afterCommand_other {command : Bytes} (other : (ascii "POST").isPrefixOf command = false) :
    Mode.afterCommand command = fun _ => .command := by
  funext answer
  simp [Mode.afterCommand, other]

section Server

variable {session after : Session} {line : Bytes} {next : Bytes → Mode}

theorem answer_kept (taken : session.answer line = some after) :
    after.connection = session.connection ∧ after.pending = session.pending ∧ after.asked = session.asked ∧
      after.consumed = session.consumed ∧ after.strayed = session.strayed ∧ after.reports = session.reports ∧
      session.answered <+: after.answered := by
  simp only [answer] at taken
  split at taken
  · cases taken
    exact ⟨rfl, rfl, rfl, rfl, rfl, rfl, List.prefix_append ..⟩
  · cases taken
    exact ⟨rfl, rfl, rfl, rfl, rfl, rfl, List.prefix_append ..⟩
  · split at taken
    · cases taken
      exact ⟨rfl, rfl, rfl, rfl, rfl, rfl, List.prefix_append ..⟩
    · cases taken
  · cases taken

/-- A server that has nothing to answer answers nothing. -/
theorem answer_silent (done : session.outgoing = []) (greeted : session.mode ≠ .greeting) :
    session.answer line = none := by
  cases mode : session.mode with
  | greeting => exact absurd mode greeted
  | _ => simp only [answer, done, Lines.next, mode]

/-- The server's answer is recorded with its question. -/
theorem answer_owed {question rest : Bytes} (owes : Owed session.mode session.outgoing question rest next)
    (taken : session.answer line = some after) : after = { session with
      outgoing := rest
      incoming := session.incoming ++ line ++ crlf
      mode := next line
      answered := session.answered ++ [(question, line ++ crlf)] } := by
  generalize mode : session.mode = before at owes
  generalize outgoing : session.outgoing = text at owes
  cases owes with
  | greeting =>
    simp only [answer, mode] at taken
    cases taken
    rw [outgoing]
  | command found =>
    simp only [answer, mode, outgoing, found] at taken
    cases taken
    rfl
  | @article received rest lines whole =>
    cases lines with
    | nil =>
      simp only [answer, mode, outgoing, List.nil_append, next_terminator, ite_true] at taken
      cases taken
      simp [crlf]
    | cons first lines =>
      have another := whole first (List.mem_cons_self ..)
      simp only [answer, mode, outgoing, List.cons_append, Lines.join_cons, List.append_assoc,
        Lines.next_whole (by decide) another.1, if_neg another.2] at taken
      cases taken

theorem answer_awaits (awaits : Awaits session next) (single : Lines.next cr lf (line ++ crlf) = some (line, []))
    (taken : session.answer line = some after) : Awaits after next := by
  cases awaits with
  | answered _ _ done _ greeted _ =>
    rw [answer_silent done greeted] at taken
    cases taken
  | owed owes empty same =>
    obtain ⟨read, sent⟩ := List.append_eq_nil_iff.mp empty
    obtain rfl := answer_owed owes taken
    refine .answered single (by simp [input, read, sent]) rfl rfl ?_ (by simp [same])
    generalize session.mode = before at owes
    generalize session.outgoing = text at owes
    generalize session.asked = question at owes
    cases owes with
    | greeting => exact nofun
    | command found =>
      simp only [Mode.afterCommand]
      split <;> exact nofun
    | article whole => exact nofun

theorem answer_muddled (muddled : Muddled session) (taken : session.answer line = some after) : Muddled after := by
  obtain ⟨-, -, asked, consumed, -, -, kept⟩ := answer_kept taken
  cases muddled with
  | owed owes other empty same =>
    obtain rfl := answer_owed owes taken
    exact .answered other (congrArg (· ++ [_]) same)
  | @answered question line rest other ahead =>
    obtain ⟨more, same⟩ := kept
    have further : after.answered = after.consumed ++ (question, line) :: (rest ++ more) := by
      rw [← same, ahead, consumed, List.append_assoc]
      rfl
    exact .answered (asked.symm ▸ other) further

theorem answer_awaited {asks : Bytes → Prop} (awaited : Awaited session asks next)
    (single : Lines.next cr lf (line ++ crlf) = some (line, [])) (taken : session.answer line = some after) :
    Awaited after asks next := by
  obtain ⟨-, -, asked, -⟩ := answer_kept taken
  rw [Awaited, asked]
  exact awaited.imp (And.imp_right (fun awaits => answer_awaits awaits single taken))
    (And.imp_right (fun muddled => answer_muddled muddled taken))

theorem receive_kept (taken : session.receive = some after) :
    ∃ outgoing mode, after = { session with outgoing, mode } ∧ session.mode.receiving = true ∧
      session.outgoing ≠ [] := by
  simp only [receive] at taken
  split at taken
  next received text outgoing receiving found =>
    split at taken
    · cases taken
    · cases taken
      refine ⟨_, _, rfl, by rw [receiving]; rfl, ?_⟩
      intro done
      rw [done] at found
      cases found
  · cases taken

/-- The server comes nearer to the end of its question. -/
theorem receive_owed {question rest : Bytes} (owes : Owed session.mode session.outgoing question rest next)
    (taken : session.receive = some after) : Owed after.mode after.outgoing question rest next := by
  obtain ⟨_, _, _, receiving, -⟩ := receive_kept taken
  generalize mode : session.mode = before at owes receiving
  generalize outgoing : session.outgoing = text at owes
  cases owes with
  | greeting => cases receiving
  | command found => cases receiving
  | @article received rest lines whole =>
    cases lines with
    | nil =>
      simp only [receive, mode, outgoing, List.nil_append, next_terminator, ite_true] at taken
      cases taken
    | cons first lines =>
      have another := whole first (List.mem_cons_self ..)
      simp only [receive, mode, outgoing, List.cons_append, Lines.join_cons, List.append_assoc,
        Lines.next_whole (by decide) another.1, if_neg another.2] at taken
      cases taken
      have later := @Owed.article (received ++ first ++ crlf) rest lines (fun line member =>
        whole line (List.mem_cons_of_mem _ member))
      simpa [crlf] using later

theorem receive_awaits (awaits : Awaits session next) (taken : session.receive = some after) : Awaits after next := by
  obtain ⟨outgoing, mode, rfl, -, filled⟩ := receive_kept taken
  cases awaits with
  | answered _ _ done _ _ _ => exact absurd done filled
  | owed owes empty same => exact .owed (receive_owed owes taken) empty same

theorem receive_awaited {asks : Bytes → Prop} (awaited : Awaited session asks next) (taken : session.receive = some after) :
    Awaited after asks next := by
  have asked : after.asked = session.asked := by
    obtain ⟨outgoing, mode, rfl, -⟩ := receive_kept taken
    rfl
  rw [Awaited, asked]
  refine awaited.imp (And.imp_right (fun awaits => receive_awaits awaits taken)) (And.imp_right (fun muddled => ?_))
  obtain ⟨outgoing, mode, rfl, -⟩ := receive_kept taken
  cases muddled with
  | owed owes other empty same => exact .owed (receive_owed owes taken) other empty same
  | answered other ahead => exact .answered other ahead

end Server

section Client

variable {session after : Session} {connection : Connection Article}

private theorem foldl_kept (calls : List (Call Article)) (session : Session) :
    (calls.foldl ask session).connection = session.connection ∧
      (calls.foldl ask session).pending = (calls.filterMap Call.handler?).getLast?.or session.pending ∧
      (calls.foldl ask session).answered = session.answered ∧ (calls.foldl ask session).consumed = session.consumed ∧
      (calls.foldl ask session).reports = session.reports := by
  induction calls generalizing session with
  | nil => exact ⟨rfl, rfl, rfl, rfl, rfl⟩
  | cons call rest ih =>
    obtain ⟨connection, pending, answered, consumed, reports⟩ := ih (ask session call)
    have kept : (ask session call).connection = session.connection ∧
        (ask session call).pending = call.handler?.or session.pending ∧
        (ask session call).answered = session.answered ∧ (ask session call).consumed = session.consumed ∧
        (ask session call).reports = session.reports := by
      cases call <;> exact ⟨rfl, rfl, rfl, rfl, rfl⟩
    refine ⟨connection.trans kept.1, ?_, answered.trans kept.2.2.1, consumed.trans kept.2.2.2.1,
      reports.trans kept.2.2.2.2⟩
    rw [List.foldl_cons, pending, kept.2.1]
    cases handler : call.handler? with
    | none => simp [handler]
    | some found =>
      rw [List.filterMap_cons_some handler, List.getLast?_cons]
      cases (rest.filterMap Call.handler?).getLast? <;> rfl

theorem perform_kept (session : Session) (act : Act Article) :
    (session.perform act).connection = act.1 ∧ (session.perform act).answered = session.answered ∧
      (session.perform act).consumed = session.consumed ∧ (session.perform act).reports = session.reports := by
  obtain ⟨connection, -, answered, consumed, reports⟩ :=
    foldl_kept act.2 { session with connection := act.1, pending := none }
  exact ⟨connection, answered, consumed, reports⟩

theorem perform_pending (session : Session) {act : Act Article} {handler : Handler Article}
    (one : act.2.filterMap Call.handler? = [handler]) : (session.perform act).pending = some handler := by
  have pending := (foldl_kept act.2 { session with connection := act.1, pending := none }).2.1
  rw [one] at pending
  exact pending

/-- A timer changes nothing here. -/
theorem perform_timer (session : Session) (connection timed : Connection Article) (calls : List (Call Article)) :
    session.perform (connection, timed.timeoutNextAsyncOperation ++ calls) = session.perform (connection, calls) := by
  rw [timeoutNextAsyncOperation]
  split <;> rfl

theorem perform_preceded (session : Session) (act : Act Article) :
    session.perform (preceded [.cancelTimer] act) = session.perform act :=
  rfl

theorem perform_readLine (session : Session) (connection : Connection Article) (stage : Stage) :
    session.perform (connection.readLine stage) = { session with connection, pending := some (.stage stage) } :=
  perform_timer ..

theorem perform_write (session : Session) (connection : Connection Article) (buffers : Bytes) (stage : Stage) :
    session.perform (connection.write buffers stage) = { session with
      connection
      pending := some (.stage stage)
      asked := buffers
      outgoing := session.outgoing ++ buffers
      strayed := session.strayed || (stage == .articleWritten && !session.mode.receiving) } :=
  perform_timer ..

theorem perform_connectHandler (session : Session) (connection : Connection Article) (result : ConnectResult) :
    session.perform (connection.connectHandlerCallback result) =
      { session with connection, pending := some (.connectHandler result) } :=
  rfl

theorem perform_statHandler (session : Session) (connection : Connection Article) (result : StatResult) :
    session.perform (connection.statHandlerCallback result) = { session with
      connection := { connection with state := .connectedAndAuthenticated, msgid := [] }
      pending := some (.statHandler connection.msgid result) } :=
  rfl

theorem perform_postHandler (session : Session) {article : Article} (held : connection.article = some article)
    (result : PostResult) : session.perform (connection.postHandlerCallback result) = { session with
      connection := { connection with state := .connectedAndAuthenticated, article := none }
      pending := some (.postHandler article result) } := by
  simp only [postHandlerCallback, held]
  rfl

variable {stage : Stage} {outcome : Outcome}

/-- A function that waits for no line. -/
theorem complete_silent (silent : reads stage = false) (taken : session.complete stage outcome = some after) :
    after = { session with
      mode := if stage = Stage.connected ∧ outcome.failed = false then .greeting else session.mode
      asked := if stage = Stage.connected then [] else session.asked }.perform
        (session.connection.run id stage outcome) := by
  simp only [complete, arrives, silent, Bool.false_eq_true, ite_false, List.isPrefixOf, ite_true, List.length_nil,
    List.drop_zero, Option.toList_none, List.map_nil, List.append_nil, Option.some.injEq] at taken
  exact taken.symm

/-- The first line that arrives is the answer, and nothing follows it. -/
theorem first_line {next : Bytes → Mode} (awaits : Awaits session next) {text rest line more : Bytes}
    (arrives : input session = text ++ rest) (found : Lines.next cr lf text = some (line, more)) :
    session.mode = next line ∧ session.outgoing = [] ∧ more = [] ∧ rest = [] ∧
      session.answered = session.consumed ++ [(session.asked, line ++ crlf)] := by
  have whole := Lines.next_append found rest
  rw [← arrives] at whole
  cases awaits with
  | owed _ empty _ =>
    rw [empty] at whole
    cases whole
  | answered single arrived done mode _ ahead =>
    rw [arrived, single, Option.some.injEq, Prod.mk.injEq] at whole
    obtain ⟨rfl, nothing⟩ := whole
    have both := List.append_eq_nil_iff.mp nothing.symm
    exact ⟨mode, done, both.1, both.2, ahead⟩

/-- A function that waits for a line gets the answer to the question, or no line. -/
theorem complete_reading {next : Bytes → Mode} (awaits : Awaits session next) (reading : reads stage = true)
    (connected : stage ≠ Stage.connected) (taken : session.complete stage outcome = some after) :
    (∃ line, session.connection.receiveLine outcome =
        (some (line ++ crlf), { session.connection with readbuf := [] }) ∧
      session.mode = next line ∧ session.outgoing = [] ∧
      session.answered = session.consumed ++ [(session.asked, line ++ crlf)] ∧
      after = { session with incoming := [], consumed := session.answered }.perform
        (session.connection.run id stage outcome)) ∨
    (∃ readbuf incoming, session.connection.receiveLine outcome = (none, { session.connection with readbuf }) ∧
      after = { session with incoming }.perform (session.connection.run id stage outcome)) := by
  simp only [complete, arrives, reading, ite_true, connected, false_and, ite_false] at taken
  cases ready : Lines.next cr lf session.connection.readbuf with
  | some found =>
    obtain ⟨line, more⟩ := found
    have received : session.connection.receiveLine outcome =
        (some (line ++ crlf), { session.connection with readbuf := more }) := by
      simp only [receiveLine, ready]
    obtain ⟨mode, done, rfl, nothing, ahead⟩ := first_line awaits rfl ready
    simp only [ready, received, Option.isSome_some, ite_true, List.isPrefixOf, List.length_nil, List.drop_zero,
      Option.some.injEq] at taken
    left
    refine ⟨line, received, mode, done, ahead, ?_⟩
    rw [← taken, ahead, nothing]
    rfl
  | none =>
    simp only [ready, Option.isSome_none, Bool.false_eq_true, ite_false] at taken
    split at taken
    next arrived =>
      obtain ⟨rest, split⟩ := List.isPrefixOf_iff_prefix.mp arrived
      rw [← split, List.drop_left, Option.some.injEq] at taken
      have arrives : input session = session.connection.readbuf ++ outcome.received ++ rest := by
        rw [input, ← split, List.append_assoc]
      cases complete : Lines.next cr lf (session.connection.readbuf ++ outcome.received) with
      | none =>
        right
        have received : session.connection.receiveLine outcome =
            (none, { session.connection with readbuf := session.connection.readbuf ++ outcome.received }) := by
          simp only [receiveLine, ready, complete, ite_self]
        refine ⟨_, rest, received, ?_⟩
        rw [← taken, received]
        simp
      | some found =>
        obtain ⟨line, more⟩ := found
        obtain ⟨mode, done, rfl, rfl, ahead⟩ := first_line awaits arrives complete
        by_cases failed : outcome.failed = true
        · right
          have received : session.connection.receiveLine outcome =
              (none, { session.connection with readbuf := session.connection.readbuf ++ outcome.received }) := by
            simp only [receiveLine, ready, failed, ite_true]
          refine ⟨_, [], received, ?_⟩
          rw [← taken, received]
          simp
        · left
          have received : session.connection.receiveLine outcome =
              (some (line ++ crlf), { session.connection with readbuf := [] }) := by
            simp only [receiveLine, ready, complete, if_neg failed]
          refine ⟨line, received, mode, done, ahead, ?_⟩
          rw [← taken, received, ahead]
          rfl
    · cases taken

/-- What a function of the connection does to a session in step. -/
structure Advances (session after : Session) : Prop where
  wire : Wire after after.pending
  matched : after.consumed = session.consumed ∨ after.consumed = session.answered
  expected : after.strayed = session.strayed
  bound : ∀ article, after.pending = some (.postHandler article .postSuccess) → Accepted after article

theorem Awaits.frame {next : Bytes → Mode} (awaits : Awaits session next) (mode : after.mode = session.mode)
    (outgoing : after.outgoing = session.outgoing) (asked : after.asked = session.asked)
    (unread : input after = input session) (answered : after.answered = session.answered)
    (consumed : after.consumed = session.consumed) : Awaits after next := by
  cases awaits with
  | owed owes empty same =>
    refine .owed ?_ (unread.trans empty) (answered.trans (same.trans consumed.symm))
    rw [mode, outgoing, asked]
    exact owes
  | answered single arrived done settled greeted ahead =>
    refine .answered single (unread.trans arrived) (outgoing.trans done) (mode.trans settled) (mode ▸ greeted) ?_
    rw [answered, consumed, asked]
    exact ahead

theorem Awaited.frame {asks : Bytes → Prop} {next : Bytes → Mode} (awaited : Awaited session asks next)
    (mode : after.mode = session.mode) (outgoing : after.outgoing = session.outgoing) (asked : after.asked = session.asked)
    (unread : input after = input session) (answered : after.answered = session.answered)
    (consumed : after.consumed = session.consumed) : Awaited after asks next := by
  rw [Awaited, asked]
  refine awaited.imp (And.imp_right (fun awaits => awaits.frame mode outgoing asked unread answered consumed))
    (And.imp_right (fun muddled => ?_))
  cases muddled with
  | owed owes other empty same =>
    rw [← mode, ← outgoing] at owes
    exact .owed owes (asked.symm ▸ other) (unread.trans empty) (answered.trans (same.trans consumed.symm))
  | answered other ahead =>
    rw [← answered, ← consumed] at ahead
    exact .answered (asked.symm ▸ other) ahead

/-- A command is written while nothing is in flight. -/
theorem write_awaited (rests : Rests { session with connection } .command) (line : Bytes)
    (stage : Stage) (strayed : Bool) :
    Awaited { session with
      connection
      pending := some (.stage stage)
      asked := line ++ crlf
      outgoing := session.outgoing ++ (line ++ crlf)
      strayed } OneLine (Mode.afterCommand line) := by
  obtain ⟨mode, done, empty, same⟩ := rests
  dsimp only at mode done same
  obtain ⟨first, rest, found⟩ : ∃ first rest, Lines.next cr lf (line ++ crlf) = some (first, rest) := Lines.next_mark line []
  have text : line ++ crlf = first ++ crlf ++ rest := by simpa [crlf] using Lines.next_join found
  cases rest with
  | nil =>
    obtain rfl : line = first := List.append_cancel_right (text.trans (List.append_nil _))
    refine .inl ⟨⟨line, found⟩, .owed ?_ empty same⟩
    simp only [mode, done, List.nil_append]
    exact .command found
  | cons byte rest =>
    have owes := Owed.command found
    refine .inr ⟨?_, .owed (by simpa only [mode, done, List.nil_append] using owes) ?_ empty same⟩
    · rintro ⟨other, one⟩
      cases found.symm.trans one
    · intro whole
      rw [text] at whole
      simpa using congrArg List.length whole

theorem complete_performs (silent : reads stage = false) (connected : stage ≠ Stage.connected)
    (taken : session.complete stage outcome = some after) :
    after = session.perform (session.connection.run id stage outcome) := by
  rw [complete_silent silent taken]
  simp only [connected, false_and, ite_false]

/-- The connection has written what it had to, and now reads, or it gives up. -/
theorem written_advances {asks : Bytes → Prop} {next : Bytes → Mode} {good bad : Connection Article → Act Article}
    {answeredStage : Stage}
    (after_eq : after = session.perform (session.connection.onWritten outcome good bad))
    (reading : good session.connection = session.connection.readLine answeredStage)
    (awaited : Awaited session asks next)
    (wire : ∀ later : Session, Awaited later asks next → later.connection = session.connection →
      later.asked = session.asked → Wire later (some (.stage answeredStage)))
    (fails : Advances session (session.perform (bad session.connection))) : Advances session after := by
  rw [after_eq, onWritten]
  split
  · exact fails
  · rw [perform_preceded, reading, perform_readLine]
    refine ⟨wire _ (awaited.frame rfl rfl rfl rfl rfl rfl) rfl rfl, .inl rfl, rfl, fun _ same => by cases same⟩

/-- Two sessions that differ in what has been read. -/
structure Reads (before session : Session) : Prop where
  consumed : session.consumed = before.consumed ∨ session.consumed = before.answered
  strayed : session.strayed = before.strayed

theorem Reads.refl (session : Session) : Reads session session := ⟨.inl rfl, rfl⟩

theorem connect_fails {before : Session} (reads : Reads before session)
    (state : connection.state ≠ .connectedAndAuthenticated) {result : ConnectResult} (failed : result ≠ .connectSuccess) :
    Advances before (session.perform (connection.connectHandlerCallback result)) := by
  rw [perform_connectHandler]
  refine ⟨?_, reads.consumed, reads.strayed, nofun⟩
  cases result with
  | connectSuccess => exact absurd rfl failed
  | _ => exact state

theorem post_fails {before : Session} (reads : Reads before session) {article : Article}
    (held : connection.article = some article) {result : PostResult}
    (failed : result = .postFailureConnectionError ∨ result = .postingNotPermitted) :
    Advances before (session.perform (connection.postHandlerCallback result)) := by
  rw [perform_postHandler session held]
  refine ⟨?_, reads.consumed, reads.strayed, ?_⟩
  · rcases failed with rfl | rfl <;> trivial
  · rcases failed with rfl | rfl <;> exact nofun

theorem stat_fails {before : Session} (reads : Reads before session) :
    Advances before (session.perform (connection.statHandlerCallback .connectionError)) := by
  rw [perform_statHandler]
  exact ⟨trivial, reads.consumed, reads.strayed, nofun⟩

theorem held_article (fits : Fits session.connection (.stage stage)) (posts : posting stage = true) :
    ∃ article, session.connection.article = some article :=
  Option.isSome_iff_exists.mp (fits.2.trans posts)

theorem connecting_advances (wire : Wire session (some (.stage stage)))
    (fits : Fits session.connection (.stage stage))
    (early : stage = .doConnect ∨ stage = .resolved ∨ stage = Stage.connected ∨ stage = .handshaken)
    (taken : session.complete stage outcome = some after) : Advances session after := by
  rcases early with rfl | rfl | rfl | rfl
  · have rests : Rests session .absent := wire
    rw [complete_performs rfl (by decide) taken]
    exact ⟨⟨rests.mode, rests.done, rests.empty, rests.same⟩, .inl rfl, rfl, fun _ same => by cases same⟩
  · have rests : Rests session .absent := wire
    rw [complete_performs rfl (by decide) taken]
    simp only [Connection.run]
    split
    · exact connect_fails (.refl session) (by rw [fits.1]; decide) (by decide)
    · rw [perform_timer]
      exact ⟨⟨rests.mode, rests.done, rests.empty, rests.same⟩, .inl rfl, rfl, fun _ same => by cases same⟩
  · have rests : Rests session .absent := wire
    rw [complete_silent rfl taken]
    have greets : Awaits { session with mode := .greeting, asked := [] } (fun _ => .command) := by
      refine .owed ?_ rests.empty rests.same
      simp only [rests.done]
      exact .greeting
    simp only [Connection.run]
    by_cases failed : outcome.failed = true
    · simp only [failed, Bool.true_eq_false, and_false, ite_false, ite_true]
      have state : session.connection.state ≠ .connectedAndAuthenticated := by rw [fits.1]; decide
      rw [perform_connectHandler]
      exact ⟨state, .inl rfl, rfl, fun _ same => by cases same⟩
    · have succeeded : outcome.failed = false := by simpa using failed
      simp only [succeeded, and_self, ite_true, Bool.false_eq_true, ite_false]
      split
      · rw [perform_preceded, perform_timer]
        exact ⟨greets.frame rfl rfl rfl rfl rfl rfl, .inl rfl, rfl, fun _ same => by cases same⟩
      · rw [perform_preceded, doAuthenticate, perform_readLine]
        exact ⟨greets.frame rfl rfl rfl rfl rfl rfl, .inl rfl, rfl, fun _ same => by cases same⟩
  · have awaits : Awaits session (fun _ => .command) := wire
    rw [complete_performs rfl (by decide) taken]
    simp only [Connection.run]
    split
    · exact connect_fails (.refl session) (by rw [fits.1]; decide) (by decide)
    · rw [perform_preceded, doAuthenticate, perform_readLine]
      exact ⟨awaits.frame rfl rfl rfl rfl rfl rfl, .inl rfl, rfl, fun _ same => by cases same⟩

/-- A function that has no line to read only moves what has arrived. -/
theorem complete_unread (reading : reads stage = true) (connected : stage ≠ Stage.connected)
    (unread : (session.connection.receiveLine outcome).1 = none) (taken : session.complete stage outcome = some after) :
    ∃ readbuf incoming, session.connection.receiveLine outcome = (none, { session.connection with readbuf }) ∧
      after = { session with incoming }.perform (session.connection.run id stage outcome) := by
  obtain ⟨readbuf, rest⟩ := receiveLine_readbuf session.connection outcome
  have ready : (Lines.next cr lf session.connection.readbuf).isSome = false := by
    rw [Option.isSome_eq_false_iff, Option.isNone_iff_eq_none]
    by_contra found
    obtain ⟨line, found⟩ := Option.ne_none_iff_exists'.mp found
    simp [receiveLine, found] at unread
  simp only [complete, arrives, reading, ite_true, connected, false_and, ite_false, unread, ready, Bool.false_eq_true,
    Option.toList_none, List.map_nil, List.append_nil] at taken
  split at taken
  · cases taken
    exact ⟨readbuf, _, Prod.ext unread rest, rfl⟩
  · cases taken

/-- A function that reads gets the line it waits for, or gives up. -/
theorem answered_advances {asks : Bytes → Prop} {next : Bytes → Mode} (awaited : Awaited session asks next)
    (reading : reads stage = true) (connected : stage ≠ Stage.connected)
    (asked : ∀ line, (session.connection.receiveLine outcome).1 = some line → asks session.asked)
    (taken : session.complete stage outcome = some after)
    {good : Bytes → Connection Article → Act Article} {bad : Connection Article → Act Article}
    (runs : session.connection.run id stage outcome = session.connection.onLine outcome good bad)
    (reads : ∀ line, session.connection.receiveLine outcome =
        (some (line ++ crlf), { session.connection with readbuf := [] }) →
      session.mode = next line → session.outgoing = [] →
      session.answered = session.consumed ++ [(session.asked, line ++ crlf)] →
      Advances session ({ session with incoming := [], consumed := session.answered }.perform
        (good (line ++ crlf) { session.connection with readbuf := [] })))
    (fails : ∀ readbuf incoming, Advances session ({ session with incoming }.perform
      (bad { session.connection with readbuf }))) : Advances session after := by
  have gives (readbuf incoming : Bytes)
      (received : session.connection.receiveLine outcome = (none, { session.connection with readbuf }))
      (same : after = { session with incoming }.perform (session.connection.run id stage outcome)) : Advances session after := by
    rw [same, runs, onLine, received]
    exact fails readbuf incoming
  rcases awaited with ⟨-, awaits⟩ | ⟨other, -⟩
  · rcases complete_reading awaits reading connected taken with
      ⟨line, received, mode, done, ahead, rfl⟩ | ⟨readbuf, incoming, received, same⟩
    · rw [runs, onLine, received]
      exact reads line received mode done ahead
    · exact gives readbuf incoming received same
  · have unread : (session.connection.receiveLine outcome).1 = none := by
      by_contra read
      obtain ⟨line, read⟩ := Option.ne_none_iff_exists'.mp read
      exact other (asked line read)
    obtain ⟨readbuf, incoming, received, same⟩ := complete_unread reading connected unread taken
    exact gives readbuf incoming received same

theorem checked_advances {before : Session} (text : Bytes) (mode : before.mode = .command)
    (done : before.outgoing = []) (state : before.connection.state ≠ .connectedAndAuthenticated) :
    Advances before ({ before with incoming := [], consumed := before.answered }.perform
      (checkAuthinfoResult { before.connection with readbuf := [] } text)) := by
  rw [checkAuthinfoResult]
  split
  · rw [perform_connectHandler]
    exact ⟨⟨mode, done, rfl, rfl⟩, .inr rfl, rfl, fun _ same => by cases same⟩
  · apply connect_fails
    · exact ⟨.inr rfl, rfl⟩
    · exact state
    · decide

theorem clean_append {label text : Bytes} (labelClean : cr ∉ label) (clean : cr ∉ text) : cr ∉ label ++ text := by
  rw [List.mem_append]
  exact fun member => member.elim labelClean clean

/-- A command that is no `POST` is written, and the client will wait for the answer. -/
theorem asks_advances {before : Session} (reads : Reads before session) (rests : Rests { session with connection } .command)
    {line : Bytes} (other : (ascii "POST").isPrefixOf line = false) {asking : Stage} (no : asking ≠ .articleWritten)
    (wire : ∀ later : Session, Awaited later OneLine (fun _ => .command) → Wire later (some (.stage asking))) :
    Advances before (session.perform (connection.write (line ++ crlf) asking)) := by
  have awaited := fun strayed => write_awaited rests line asking strayed
  rw [afterCommand_other other] at awaited
  rw [perform_write]
  have expected : (session.strayed || (asking == .articleWritten && !session.mode.receiving)) = before.strayed := by
    rw [beq_false_of_ne no, Bool.false_and, Bool.or_false, reads.strayed]
  exact ⟨wire _ (awaited _), reads.consumed, expected, nofun⟩

theorem authenticating_advances (wire : Wire session (some (.stage stage)))
    (fits : Fits session.connection (.stage stage))
    (asked : ∀ line, (session.connection.receiveLine outcome).1 = some line → reads stage = true → Asks stage session.asked)
    (early : stage = .greeted ∨ stage = .usernameWritten ∨ stage = .usernameAnswered ∨ stage = .passwordWritten ∨
      stage = .passwordAnswered)
    (taken : session.complete stage outcome = some after) : Advances session after := by
  have state : session.connection.state ≠ .connectedAndAuthenticated := by
    rw [fits.1]
    rcases early with rfl | rfl | rfl | rfl | rfl <;> decide
  have gives (readbuf incoming : Bytes) : Advances session ({ session with incoming }.perform
      (connectHandlerCallback { session.connection with readbuf } .fatalConnectError)) := by
    apply connect_fails
    · exact ⟨.inl rfl, rfl⟩
    · exact state
    · decide
  rcases early with rfl | rfl | rfl | rfl | rfl
  · have awaits : Awaits session (fun _ => .command) := wire
    have awaited : Awaited session (fun _ => True) (fun _ => .command) := .inl ⟨trivial, awaits⟩
    refine answered_advances awaited rfl (by decide) (fun _ _ => trivial) taken rfl (fun line _ mode done _ => ?_) gives
    split
    · apply connect_fails
      · exact ⟨.inr rfl, rfl⟩
      · exact state
      · decide
    · have other : (ascii "POST").isPrefixOf (Protocol.authinfouser ++ session.connection.conninfo.username) = false := rfl
      apply asks_advances ?_ ?_ other
      · decide
      · exact fun later awaited => awaited
      · exact ⟨.inr rfl, rfl⟩
      · exact ⟨mode, done, rfl, rfl⟩
  · apply written_advances (complete_performs rfl (by decide) taken) rfl wire
    · exact fun later awaited _ _ => awaited
    · exact connect_fails (.refl session) state (by decide)
  · refine answered_advances wire rfl (by decide) (fun line read => asked line read rfl) taken rfl
      (fun line _ mode done _ => ?_) gives
    split
    · have other : (ascii "POST").isPrefixOf (Protocol.authinfopass ++ session.connection.conninfo.password) = false := rfl
      apply asks_advances ?_ ?_ other
      · decide
      · exact fun later awaited => awaited
      · exact ⟨.inr rfl, rfl⟩
      · exact ⟨mode, done, rfl, rfl⟩
    · exact checked_advances _ mode done state
  · apply written_advances (complete_performs rfl (by decide) taken) rfl wire
    · exact fun later awaited _ _ => awaited
    · exact connect_fails (.refl session) state (by decide)
  · exact answered_advances wire rfl (by decide) (fun line read => asked line read rfl) taken rfl
      (fun line _ mode done _ => checked_advances _ mode done state) gives

theorem stating_advances (wire : Wire session (some (.stage stage)))
    (asked : ∀ line, (session.connection.receiveLine outcome).1 = some line → reads stage = true → Asks stage session.asked)
    (early : stage = .doStat ∨ stage = .statWritten ∨ stage = .statAnswered)
    (taken : session.complete stage outcome = some after) : Advances session after := by
  rcases early with rfl | rfl | rfl
  · have rests : Rests session .command := wire
    rw [complete_performs rfl (by decide) taken]
    have other : (ascii "POST").isPrefixOf (Protocol.stat ++ session.connection.msgid) = false := rfl
    apply asks_advances ?_ ?_ other
    · decide
    · exact fun later awaited => awaited
    · exact .refl session
    · exact ⟨rests.mode, rests.done, rests.empty, rests.same⟩
  · apply written_advances (complete_performs rfl (by decide) taken) rfl wire
    · exact fun later awaited _ _ => awaited
    · exact stat_fails (.refl session)
  · refine answered_advances wire rfl (by decide) (fun line read => asked line read rfl) taken rfl
      (fun line _ mode done _ => ?_) (fun readbuf incoming => ?_)
    · split
      · rw [perform_statHandler]
        exact ⟨⟨mode, done, rfl, rfl⟩, .inr rfl, rfl, nofun⟩
      · rw [perform_statHandler]
        exact ⟨⟨mode, done, rfl, rfl⟩, .inr rfl, rfl, nofun⟩
    · apply stat_fails
      exact ⟨.inl rfl, rfl⟩

theorem head_closed {line : Bytes} {byte : UInt8} (other : byte ≠ cr) :
    (line ++ crlf).head? = some byte ↔ line.head? = some byte := by
  cases line with
  | nil => simp [crlf, Ne.symm other]
  | cons first rest => simp

/-- The lines of an article up to its first terminator, and what follows it. -/
theorem wire_terminated (article : Article) : ∃ lines rest,
    (∀ line ∈ lines, Lines.Whole cr lf line ∧ line ≠ terminator) ∧
      article.wire = Lines.join cr lf (lines ++ [terminator]) ++ rest ∧ (OneArticle article.wire ↔ rest = []) := by
  obtain ⟨before, whole, split⟩ := Lines.split_mark (by decide : cr ≠ lf)
    (article.header.writeTo ++ crlf ++ article.payload.flatten) (terminator ++ crlf)
  have text : article.wire = article.header.writeTo ++ crlf ++ article.payload.flatten ++ cr :: lf :: (terminator ++ crlf) := by
    simp [Article.wire, Protocol.messageTerm, ascii, crlf, terminator, cr, lf]
  have last : Lines.split cr lf (terminator ++ crlf) = ([terminator], []) := by decide
  rw [← text, last] at split
  have found : terminator ∈ before ++ [terminator] := List.mem_append_right _ (List.mem_singleton_self _)
  obtain ⟨lines, rest, parts, absent⟩ := List.eq_append_cons_of_mem found
  have each : ∀ line ∈ before ++ [terminator], Lines.Whole cr lf line :=
    List.forall_mem_append.mpr ⟨whole, List.forall_mem_singleton.mpr (by decide)⟩
  rw [parts] at split each
  refine ⟨lines, Lines.join cr lf rest, ?_, ?_, ?_, ?_⟩
  · exact fun line member => ⟨each line (List.mem_append_left _ member), fun same => absent (same ▸ member)⟩
  · have joined := Lines.join_split cr lf article.wire
    rw [split] at joined
    rw [← joined]
    simp
  · rintro ⟨others, one, unended⟩
    have same := congrArg Prod.fst (split.symm.trans one)
    rcases List.eq_nil_or_concat rest with rfl | ⟨more, line, rfl⟩
    · rfl
    · have both : (lines ++ terminator :: more) ++ [line] = others ++ [terminator] := by simpa using same
      have longer : lines ++ terminator :: more = others := (List.append_inj' both rfl).1
      exact absurd (longer ▸ List.mem_append_right lines (List.mem_cons_self ..)) unended
  · intro nothing
    cases rest with
    | nil => exact ⟨lines, split, absent⟩
    | cons line rest => simp at nothing

/-- The article goes to a server that has asked for it. -/
theorem sends_advances {before : Session} (reads : Reads before session) (mode : session.mode = .article [])
    (done : session.outgoing = []) (empty : input { session with connection } = [])
    (same : session.answered = session.consumed) {article : Article} (held : connection.article = some article) :
    Advances before (session.perform (connection.sendArticle id article)) := by
  obtain ⟨lines, rest, whole, wire, one⟩ := wire_terminated article
  rw [sendArticle, perform_write]
  have owes := @Owed.article [] rest lines whole
  rw [List.nil_append, ← wire] at owes
  refine ⟨⟨?_, ?_⟩, reads.consumed, ?_, nofun⟩
  · by_cases nothing : rest = []
    · subst nothing
      refine .inl ⟨one.mpr rfl, .owed ?_ empty same⟩
      rw [List.append_nil] at wire
      simpa only [mode, done, List.nil_append, id, wire] using owes
    · have owes' : Owed session.mode (session.outgoing ++ article.wire) (Lines.join cr lf (lines ++ [terminator])) rest
          (fun _ => .command) := by simpa only [mode, done, List.nil_append] using owes
      have short : Lines.join cr lf (lines ++ [terminator]) ≠ article.wire := fun same =>
        nothing (List.self_eq_append_right.mp (same.trans wire))
      exact .inr ⟨fun asked => nothing (one.mp asked), .owed owes' short empty same⟩
  · intro other found
    cases held.symm.trans found
    rfl
  · simp [mode, Mode.receiving, reads.strayed]

theorem posting_advances (wire : Wire session (some (.stage stage)))
    (fits : Fits session.connection (.stage stage))
    (asked : ∀ line, (session.connection.receiveLine outcome).1 = some line → reads stage = true → Asks stage session.asked)
    (heard : ∀ line, stage = .postAnswered → (session.connection.receiveLine outcome).1 = some line →
      line.head? = some 51 ∨ line.head? = some 52)
    (late : stage = .doPost ∨ stage = .postWritten ∨ stage = .postAnswered ∨ stage = .articleWritten)
    (taken : session.complete stage outcome = some after) : Advances session after := by
  have posts : posting stage = true := by rcases late with rfl | rfl | rfl | rfl <;> rfl
  obtain ⟨article, held⟩ := held_article fits posts
  have gives : Advances session (session.perform
      (session.connection.postHandlerCallback .postFailureConnectionError)) :=
    post_fails (.refl session) held (.inl rfl)
  rcases late with rfl | rfl | rfl | rfl
  · have rests : Rests session .command := wire
    rw [complete_performs rfl (by decide) taken]
    have awaited := @write_awaited session { session.connection with state := .busy }
      ⟨rests.mode, rests.done, rests.empty, rests.same⟩ (ascii "POST") .postWritten
    have text : Protocol.post = ascii "POST" ++ crlf := by decide
    simp only [Connection.run, doPost, perform_write, text]
    refine ⟨awaited _, .inl rfl, ?_, fun _ same => by cases same⟩
    exact Bool.or_false _
  · apply written_advances (complete_performs rfl (by decide) taken) rfl wire
    · exact fun later awaited _ _ => awaited
    · exact gives
  · refine answered_advances wire rfl (by decide) (fun line read => asked line read rfl) taken rfl
      (fun line received mode done _ => ?_) (fun readbuf incoming => ?_)
    · split
      next refused =>
        apply post_fails
        · exact ⟨.inr rfl, rfl⟩
        · exact held
        · exact .inr rfl
      next invited =>
        have three := (heard (line ++ crlf) rfl (by rw [received])).resolve_right invited
        rw [head_closed (by decide)] at three
        simp only [held]
        have receiving : session.mode = .article [] := by
          rw [mode, Mode.afterCommand, if_pos ⟨by decide, three⟩]
        apply sends_advances
        · exact ⟨.inr rfl, rfl⟩
        · exact receiving
        · exact done
        · rfl
        · rfl
        · rfl
    · apply post_fails
      · exact ⟨.inl rfl, rfl⟩
      · exact held
      · exact .inl rfl
  · obtain ⟨awaited, written⟩ := wire
    apply written_advances (complete_performs rfl (by decide) taken) rfl awaited
    · exact fun later awaited same asked => ⟨awaited, by rw [same, asked]; exact written⟩
    · exact gives

/-- The answer to an article decides which report its connection makes. -/
theorem concluding_advances (wire : Wire session (some (.stage .articleAnswered)))
    (fits : Fits session.connection (.stage .articleAnswered))
    (asked : ∀ line, (session.connection.receiveLine outcome).1 = some line → OneArticle session.asked)
    (taken : session.complete .articleAnswered outcome = some after) : Advances session after := by
  obtain ⟨article, held⟩ := held_article fits rfl
  obtain ⟨awaited, written⟩ := wire
  refine answered_advances awaited rfl (by decide) asked taken rfl (fun line _ mode done ahead => ?_)
    (fun readbuf incoming => ?_)
  · have given : { session.connection with readbuf := [] }.article = some article := held
    split
    next accepted =>
      rw [perform_postHandler _ given]
      refine ⟨⟨mode, done, rfl, rfl⟩, .inr rfl, rfl, fun other same => ?_⟩
      cases same
      refine ⟨line ++ crlf, ?_, accepted⟩
      simp [ahead, written article held]
    · rw [perform_postHandler _ given]
      exact ⟨⟨mode, done, rfl, rfl⟩, .inr rfl, rfl, nofun⟩
  · apply post_fails
    · exact ⟨.inl rfl, rfl⟩
    · exact held
    · exact .inl rfl

theorem complete_advances (wire : Wire session (some (.stage stage)))
    (fits : Fits session.connection (.stage stage))
    (asked : ∀ line, (session.connection.receiveLine outcome).1 = some line → reads stage = true → Asks stage session.asked)
    (heard : ∀ line, stage = .postAnswered → (session.connection.receiveLine outcome).1 = some line →
      line.head? = some 51 ∨ line.head? = some 52)
    (taken : session.complete stage outcome = some after) : Advances session after := by
  cases stage with
  | doConnect => exact connecting_advances wire fits (by simp) taken
  | resolved => exact connecting_advances wire fits (by simp) taken
  | connected => exact connecting_advances wire fits (by simp) taken
  | handshaken => exact connecting_advances wire fits (by simp) taken
  | greeted => exact authenticating_advances wire fits asked (by simp) taken
  | usernameWritten => exact authenticating_advances wire fits asked (by simp) taken
  | usernameAnswered => exact authenticating_advances wire fits asked (by simp) taken
  | passwordWritten => exact authenticating_advances wire fits asked (by simp) taken
  | passwordAnswered => exact authenticating_advances wire fits asked (by simp) taken
  | doPost => exact posting_advances wire fits asked heard (by simp) taken
  | postWritten => exact posting_advances wire fits asked heard (by simp) taken
  | postAnswered => exact posting_advances wire fits asked heard (by simp) taken
  | articleWritten => exact posting_advances wire fits asked heard (by simp) taken
  | articleAnswered => exact concluding_advances wire fits (fun line read => asked line read rfl) taken
  | doStat => exact stating_advances wire asked (by simp) taken
  | statWritten => exact stating_advances wire asked (by simp) taken
  | statAnswered => exact stating_advances wire asked (by simp) taken
  | quitWritten => exact wire.elim

theorem complete_kept (taken : session.complete stage outcome = some after) :
    after.answered = session.answered ∧ after.reports = session.reports := by
  simp only [complete] at taken
  split at taken
  · cases taken
    exact ⟨(perform_kept ..).2.1, (perform_kept ..).2.2.2⟩
  · cases taken

theorem complete_fits (fits : Fits session.connection (.stage stage))
    (staying : owns (.stage stage : Handler Article) = true)
    (taken : session.complete stage outcome = some after) :
    ∃ handler, after.pending = some handler ∧ Fits after.connection handler := by
  obtain ⟨handler, one, -, fits, -⟩ := run_continues id outcome fits staying
  simp only [complete] at taken
  split at taken
  · cases taken
    refine ⟨handler, perform_pending _ one, ?_⟩
    rw [(perform_kept ..).1]
    exact fits
  · cases taken

end Client

section Steps

variable {session after : Session} {event : Event}

/-- The server's steps keep what the wire looks like. -/
theorem Wire.served {pending : Option (Handler Article)} (wire : Wire session pending)
    (connection : after.connection = session.connection) (asked : after.asked = session.asked)
    (awaits : ∀ next, Awaits session next → Awaits after next)
    (awaited : ∀ asks next, Awaited session asks next → Awaited after asks next)
    (rests : ∀ mode, mode ≠ .greeting → ¬ Rests session mode) : Wire after pending := by
  cases pending with
  | none =>
    intro state
    exact absurd (wire (connection ▸ state)) (rests .command (fun same => by cases same))
  | some handler =>
    cases handler with
    | stage stage =>
      cases stage with
      | doConnect => exact absurd wire (rests .absent (fun same => by cases same))
      | resolved => exact absurd wire (rests .absent (fun same => by cases same))
      | connected => exact absurd wire (rests .absent (fun same => by cases same))
      | doPost => exact absurd wire (rests .command (fun same => by cases same))
      | doStat => exact absurd wire (rests .command (fun same => by cases same))
      | handshaken => exact awaits _ wire
      | greeted => exact awaits _ wire
      | articleWritten => exact ⟨awaited _ _ wire.1, by rw [connection, asked]; exact wire.2⟩
      | articleAnswered => exact ⟨awaited _ _ wire.1, by rw [connection, asked]; exact wire.2⟩
      | quitWritten => exact wire.elim
      | _ => exact awaited _ _ wire
    | timer => exact wire.elim
    | connectHandler result =>
      cases result with
      | connectSuccess => exact absurd wire (rests .command (fun same => by cases same))
      | _ =>
        intro state
        exact wire (connection ▸ state)
    | postHandler article result =>
      cases result with
      | postSuccess => exact absurd wire (rests .command (fun same => by cases same))
      | postFailure => exact absurd wire (rests .command (fun same => by cases same))
      | _ => trivial
    | statHandler msgid result =>
      cases result with
      | connectionError => trivial
      | _ => exact absurd wire (rests .command (fun same => by cases same))

theorem Accepted.kept {article : Article} (accepted : Accepted session article)
    (answered : session.answered <+: after.answered) : Accepted after article := by
  obtain ⟨line, member, two⟩ := accepted
  exact ⟨line, answered.subset member, two⟩

theorem answer_synced {line : Bytes} (synced : Synced session)
    (single : Lines.next cr lf (line ++ crlf) = some (line, [])) (taken : session.answer line = some after) :
    Synced after := by
  obtain ⟨connection, pending, asked, consumed, -, reports, answered⟩ := answer_kept taken
  have wire : Wire after session.pending := by
    apply synced.wire.served connection asked
    · exact fun next awaits => answer_awaits awaits single taken
    · exact fun asks next awaited => answer_awaited awaited single taken
    · intro mode other rests
      rw [answer_silent rests.done (rests.mode ▸ other)] at taken
      cases taken
  refine ⟨pending ▸ wire, ?_, ?_, ?_, ?_, ?_⟩
  · rw [pending, connection]
    exact synced.fits
  · rw [pending, connection]
    exact synced.free
  · rw [consumed]
    exact synced.matched.trans answered
  · rw [pending]
    exact fun article bound => (synced.bound article bound).kept answered
  · rw [reports]
    exact fun article member => (synced.earned article member).kept answered

theorem receive_synced (synced : Synced session) (taken : session.receive = some after) : Synced after := by
  have wire : Wire after session.pending := by
    obtain ⟨outgoing, mode, same, -, filled⟩ := receive_kept taken
    apply synced.wire.served
    · rw [same]
    · rw [same]
    · exact fun next awaits => receive_awaits awaits taken
    · exact fun asks next awaited => receive_awaited awaited taken
    · exact fun mode _ rests => filled rests.done
  obtain ⟨outgoing, mode, rfl, -, -⟩ := receive_kept taken
  exact ⟨wire, synced.fits, synced.free, synced.matched, synced.bound, synced.earned⟩

theorem close_disconnects {α : Type} (connection : Connection α) (outcome : Outcome) :
    (connection.close outcome).state = .disconnected ∧ (connection.close outcome).article = connection.article := by
  rw [close]
  split
  next already => exact ⟨already, rfl⟩
  · exact ⟨rfl, rfl⟩

theorem report_synced {handler : Handler Article} {outcome : Outcome} (synced : Synced session)
    (pending : session.pending = some handler) (callback : ∀ stage, handler ≠ .stage stage) :
    Synced (session.report handler outcome) := by
  have fits := synced.fits handler pending
  have wire := synced.wire
  have bound := synced.bound
  rw [pending] at wire bound
  have rested (rests : Rests session .command) {reports : List (Article × PostResult)} :
      Rests { session with pending := none, reports } .command :=
    ⟨rests.mode, rests.done, rests.empty, rests.same⟩
  have closed {later : Session} (gone : later.connection = session.connection.close outcome) :
      Wire later none := by
    intro state
    rw [gone, (close_disconnects session.connection outcome).1] at state
    cases state
  cases handler with
  | stage stage => exact absurd rfl (callback stage)
  | timer => exact wire.elim
  | connectHandler result =>
    have empty : session.connection.article = none := by
      cases result with
      | connectSuccess => exact fits.article
      | _ => exact fits
    refine ⟨?_, nofun, fun _ => empty, synced.matched, nofun, synced.earned⟩
    cases result with
    | connectSuccess => exact fun _ => rested wire
    | _ => exact fun state => absurd state wire
  | statHandler msgid result =>
    have empty : session.connection.article = none := fits.article
    cases result with
    | connectionError =>
      refine ⟨closed rfl, nofun, fun _ => ?_, synced.matched, nofun, synced.earned⟩
      exact (close_disconnects session.connection outcome).2.trans empty
    | _ => exact ⟨fun _ => rested wire, nofun, fun _ => empty, synced.matched, nofun, synced.earned⟩
  | postHandler article result =>
    have empty : session.connection.article = none := fits.article
    have earned : ∀ other, (other, .postSuccess) ∈ (article, result) :: session.reports → Accepted session other := by
      intro other member
      rcases List.mem_cons.mp member with same | earlier
      · cases same
        exact bound _ rfl
      · exact synced.earned other earlier
    have shut : (session.connection.close outcome).article = none :=
      (close_disconnects session.connection outcome).2.trans empty
    cases result with
    | postSuccess => exact ⟨fun _ => rested wire, nofun, fun _ => empty, synced.matched, nofun, earned⟩
    | postFailure => exact ⟨fun _ => rested wire, nofun, fun _ => empty, synced.matched, nofun, earned⟩
    | postingNotPermitted => exact ⟨closed rfl, nofun, fun _ => shut, synced.matched, nofun, earned⟩
    | postFailureConnectionError => exact ⟨closed rfl, nofun, fun _ => shut, synced.matched, nofun, earned⟩

theorem asyncPost_synced {message : Article} {act : Act Article} (synced : Synced session)
    (pending : session.pending = none) (accepted : session.connection.asyncPost message = (true, act)) :
    Synced (session.perform act) ∧ (session.perform act).strayed = session.strayed ∧
      (session.perform act).reports = session.reports := by
  simp only [asyncPost] at accepted
  split at accepted
  · cases accepted
  next ready =>
    rw [not_not] at ready
    cases accepted
    have rests := synced.wire
    rw [pending] at rests
    obtain ⟨mode, done, empty, same⟩ := rests ready
    refine ⟨⟨⟨mode, done, empty, same⟩, ?_, (fun same => by cases same), synced.matched, (fun _ same => by cases same),
      synced.earned⟩, rfl, rfl⟩
    rintro handler ⟨⟩
    exact ⟨ready, rfl⟩

theorem asyncStat_synced {mid : Bytes} {act : Act Article} (synced : Synced session)
    (pending : session.pending = none) (accepted : session.connection.asyncStat mid = (true, act)) :
    Synced (session.perform act) ∧ (session.perform act).strayed = session.strayed ∧
      (session.perform act).reports = session.reports := by
  simp only [asyncStat] at accepted
  split at accepted
  · cases accepted
  next ready =>
    rw [not_not] at ready
    cases accepted
    have rests := synced.wire
    rw [pending] at rests
    obtain ⟨mode, done, empty, same⟩ := rests ready
    refine ⟨⟨⟨mode, done, empty, same⟩, ?_, (fun same => by cases same), synced.matched,
      (fun _ same => by cases same), synced.earned⟩, rfl, rfl⟩
    rintro handler ⟨⟩
    refine ⟨ready, ?_⟩
    rw [(perform_kept ..).1]
    simp [synced.free pending, posting]

theorem complete_synced {stage : Stage} {outcome : Outcome} (synced : Synced session)
    (pending : session.pending = some (.stage stage)) (reads : ¬ Misreads session (.complete outcome))
    (taken : session.complete stage outcome = some after) : Synced after ∧ after.strayed = session.strayed := by
  have wire := synced.wire
  rw [pending] at wire
  have fits := synced.fits _ pending
  have asked : ∀ line, (session.connection.receiveLine outcome).1 = some line → Session.reads stage = true →
      Asks stage session.asked := by
    intro line received reading
    by_contra other
    exact reads ⟨stage, line, pending, reading, received, .inl other⟩
  have heard : ∀ line, stage = .postAnswered → (session.connection.receiveLine outcome).1 = some line →
      line.head? = some 51 ∨ line.head? = some 52 := by
    rintro line rfl received
    by_contra neither
    rw [not_or] at neither
    exact reads ⟨_, line, pending, rfl, received, .inr ⟨rfl, neither⟩⟩
  have staying : owns (.stage stage : Handler Article) = true := by
    cases stage with
    | quitWritten => exact wire.elim
    | _ => rfl
  have advances := complete_advances wire fits asked heard taken
  obtain ⟨answered, reports⟩ := complete_kept taken
  obtain ⟨handler, later, laterFits⟩ := complete_fits fits staying taken
  refine ⟨⟨advances.wire, ?_, ?_, ?_, advances.bound, ?_⟩, advances.expected⟩
  · intro other same
    cases later.symm.trans same
    exact laterFits
  · intro nothing
    cases later.symm.trans nothing
  · rw [answered]
    rcases advances.matched with same | same
    · rw [same]
      exact synced.matched
    · rw [same]
  · rw [reports]
    exact fun article member => (synced.earned article member).kept (answered ▸ List.prefix_refl _)

theorem step_synced (synced : Synced session) (reads : ¬ Misreads session event)
    (taken : session.step event = some after) : Synced after ∧ after.strayed = session.strayed := by
  cases event with
  | asyncPost message =>
    simp only [step] at taken
    split at taken
    next act pending accepted =>
      cases taken
      obtain ⟨later, strayed, -⟩ := asyncPost_synced synced pending accepted
      exact ⟨later, strayed⟩
    · cases taken
  | asyncStat mid =>
    simp only [step] at taken
    split at taken
    next act pending accepted =>
      cases taken
      obtain ⟨later, strayed, -⟩ := asyncStat_synced synced pending accepted
      exact ⟨later, strayed⟩
    · cases taken
  | complete outcome =>
    simp only [step] at taken
    split at taken
    next stage pending => exact complete_synced synced pending reads taken
    · cases taken
  | report outcome =>
    simp only [step] at taken
    split at taken
    · cases taken
    · cases taken
    next _ handler callback pending =>
      cases taken
      refine ⟨report_synced synced pending callback, ?_⟩
      cases handler with
      | statHandler msgid result => cases result <;> rfl
      | _ => rfl
  | answer line =>
    simp only [step] at taken
    split at taken
    next single => exact ⟨answer_synced synced single taken, (answer_kept taken).2.2.2.2.1⟩
    · cases taken
  | receive =>
    obtain ⟨outgoing, mode, same, -, -⟩ := receive_kept taken
    exact ⟨receive_synced synced taken, by rw [same]⟩

/-- A connection that reads a line asked one question, or the answers are muddled. -/
theorem Wire.muddled {stage : Stage} (wire : Wire session (some (.stage stage))) (reading : reads stage = true)
    (other : ¬ Asks stage session.asked) : Muddled session := by
  have muddled {asks : Bytes → Prop} {next : Bytes → Mode} (awaited : Awaited session asks next)
      (same : Asks stage = asks) : Muddled session := by
    rcases awaited with ⟨one, -⟩ | ⟨-, muddled⟩
    · exact absurd (same ▸ one) other
    · exact muddled
  cases stage with
  | greeted => exact absurd trivial other
  | usernameAnswered => exact muddled wire rfl
  | passwordAnswered => exact muddled wire rfl
  | postAnswered => exact muddled wire rfl
  | articleAnswered => exact muddled wire.1 rfl
  | statAnswered => exact muddled wire rfl
  | _ => cases reading

/-- An answer to something else is taken for the answer to what was written last. -/
theorem muddled_mismatches {stage : Stage} {outcome : Outcome} {line : Bytes} (muddled : Muddled session)
    (reading : reads stage = true) (connected : stage ≠ Stage.connected)
    (received : (session.connection.receiveLine outcome).1 = some line)
    (taken : session.complete stage outcome = some after) : ¬ after.consumed <+: after.answered := by
  simp only [complete, arrives, reading, ite_true, connected, false_and, ite_false, received] at taken
  generalize bytes : (if (Lines.next cr lf session.connection.readbuf).isSome = true then [] else outcome.received) =
    arriving at taken
  split at taken
  next arrived =>
    cases taken
    rw [(perform_kept ..).2.1, (perform_kept ..).2.2.1]
    cases muddled with
    | owed owes other empty same =>
      -- Nothing can be read from a server that has not answered.
      obtain ⟨unread, silent⟩ := List.append_eq_nil_iff.mp empty
      have nothing : arriving = [] := by simpa [silent] using arrived
      rw [← bytes] at nothing
      simp [unread, Lines.next] at nothing
      simp [receiveLine, unread, Lines.next, nothing] at received
    | answered other ahead =>
      dsimp only
      rw [ahead, List.prefix_append_right_inj]
      intro first
      have same := (List.cons_prefix_cons.mp first).1
      exact other (congrArg Prod.fst same).symm
  · cases taken

/-- An answer that is neither a refusal nor a request makes the connection write an article to
a server that does not expect one. -/
theorem unheard_strays {outcome : Outcome} {line : Bytes} {next : Bytes → Mode} (awaits : Awaits session next)
    (plain : next = Mode.afterCommand (ascii "POST")) {article : Article} (held : session.connection.article = some article)
    (received : (session.connection.receiveLine outcome).1 = some line) (three : line.head? ≠ some 51)
    (four : line.head? ≠ some 52) (taken : session.complete .postAnswered outcome = some after) : after.strayed = true := by
  rcases complete_reading awaits rfl (by decide) taken with
    ⟨text, arrived, mode, -, -, rfl⟩ | ⟨readbuf, incoming, arrived, rfl⟩
  · rw [arrived, Option.some.injEq] at received
    have runs : session.connection.run id .postAnswered outcome = preceded [.cancelTimer]
        (sendArticle id { session.connection with readbuf := [] } article) := by
      simp only [Connection.run, onLine, arrived, received, if_neg four, held]
    have other : text.head? ≠ some 51 := by
      rw [← received] at three
      exact fun same => three ((head_closed (by decide)).mpr same)
    rw [runs, perform_preceded, sendArticle, perform_write]
    simp [mode, plain, Mode.afterCommand, other, Mode.receiving]
  · rw [arrived] at received
    cases received

/-- A session in which an answer is misread is not in step any more. -/
theorem misreads_stray (synced : Synced session) (misreads : Misreads session event)
    (taken : session.step event = some after) : ¬ InStep after := by
  cases event with
  | complete outcome =>
    obtain ⟨stage, line, pending, reading, received, misread⟩ := misreads
    simp only [step, pending] at taken
    have connected : stage ≠ Stage.connected := by
      rintro rfl
      cases reading
    have wire := synced.wire
    rw [pending] at wire
    intro inStep
    have asked : Asks stage session.asked := by
      by_contra other
      exact muddled_mismatches (wire.muddled reading other) reading connected received taken inStep.matched
    rcases misread with other | ⟨rfl, three, four⟩
    · exact other asked
    · obtain ⟨article, held⟩ := held_article (synced.fits _ pending) rfl
      obtain ⟨-, awaits⟩ | ⟨other, -⟩ := wire
      · have strayed := unheard_strays awaits rfl held received three four taken
        rw [inStep.expected] at strayed
        cases strayed
      · exact other asked
  | _ => exact misreads.elim

theorem synced_make (unconnected : Unconnected Article) : Synced (Session.make unconnected) := by
  obtain ⟨connection, state, readbuf, article⟩ := unconnected
  have connects : Session.make ⟨connection, state, readbuf, article⟩ =
      ⟨connection, some (.stage .doConnect), [], [], [], .absent, [], [], false, []⟩ := by
    simp only [Session.make, asyncConnect, state, ite_true]
    rfl
  rw [connects]
  refine ⟨⟨rfl, rfl, ?_, rfl⟩, ?_, (fun same => by cases same), List.prefix_refl _,
    (fun _ same => by cases same), fun _ member => by cases member⟩
  · simpa [input] using readbuf
  · rintro handler ⟨⟩
    exact ⟨state, by simp [article, posting]⟩

/-- A session stays in step precisely when every line that is read answers one question, and
those read for an answer to `POST` start with a three or a four. -/
theorem inStep_iff_read (unconnected : Unconnected Article) (events : List Event) :
    Machine.Holds step InStep (Session.make unconnected) events ↔
      Machine.Meets step (fun session event => ¬ Misreads session event) (Session.make unconnected) events := by
  have synced := synced_make unconnected
  apply Machine.holds_iff_meets Synced
  · refine ⟨synced, ?_, synced.matched, synced.earned⟩
    rw [Session.make, asyncConnect, if_pos unconnected.state]
    rfl
  · intro before event after synced inStep taken reads
    obtain ⟨later, strayed⟩ := step_synced synced reads taken
    exact ⟨later, strayed.trans inStep.expected, later.matched, later.earned⟩
  · intro before event after synced _ taken missed
    exact misreads_stray synced (not_not.mp missed) taken

end Steps

private def sampleUnconnected : Unconnected Article where
  connection := Connection.make ⟨ascii "user", ascii "pass", ascii "news.example", 119, false⟩ 0
  state := rfl
  readbuf := rfl
  article := rfl

private def sampleArticle : Article :=
  ⟨⟨ascii "poster", [], ascii "sample", [], []⟩, [ascii "text\r\n"]⟩

private def received (line : String) : Outcome := ⟨false, ascii line, false⟩

/-- The server does not know the command `POST`. -/
def unknownCommandRun : List Event :=
  [.complete (received ""), .complete (received ""), .complete (received ""), .answer (ascii "200 ready"),
    .complete (received "200 ready\r\n"), .complete (received ""), .answer (ascii "281 welcome"),
    .complete (received "281 welcome\r\n"), .report (received ""), .asyncPost sampleArticle, .complete (received ""),
    .complete (received ""), .answer (ascii "500 what?"), .complete (received "500 what?\r\n")]

theorem unknown_command_strays : ¬ Machine.Holds step InStep (Session.make sampleUnconnected) unknownCommandRun := by
  intro holds
  have computed : (Machine.run step (Session.make sampleUnconnected) unknownCommandRun).map
      (fun session => session.strayed) = some true := by decide +kernel
  obtain ⟨session, reached, strayed⟩ := Option.map_eq_some_iff.mp computed
  rw [(Machine.holds_last holds reached).expected] at strayed
  cases strayed

end Post2Usenet.Proofs.SessionSync
