import Post2Usenet.Proofs.DummyTalks
import Post2Usenet.Proofs.NullBytes

/-! The program against its dummy server. The server never sees a violation of the
protocol, and what it has on its disk are the articles it was sent, byte for byte
and in their order. -/

namespace Post2Usenet.Proofs.Rehearsals
open Connection ConnectionSteps DummyServer Nntp Rehearsal SessionSync DummyTalks

section Steps

variable {before after rehearsal : Rehearsal} {files more : List Bytes} {talk : Talk} {place : Place}

/-- What the client relies on while a handler is pending. The files are those of the
articles it has been told are stored; `more` is what it gave up. -/
def Stands (rehearsal : Rehearsal) (files more : List Bytes) : Option (Handler Framed) → Prop
  | some (.stage .doConnect) | some (.stage .resolved) | some (.stage .connected) => Idles rehearsal files .accept
  | some (.stage .handshaken) | some (.stage .greeted) => Waits rehearsal files .greeting
  | some (.stage .usernameWritten) | some (.stage .usernameAnswered) => ∃ name, Waits rehearsal files (.username name)
  | some (.stage .passwordWritten) | some (.stage .passwordAnswered) => ∃ word, Waits rehearsal files (.password word)
  | some (.stage .doPost) => Idles rehearsal files .command
  | some (.stage .postWritten) | some (.stage .postAnswered) => Waits rehearsal files .post
  | some (.stage .articleWritten) | some (.stage .articleAnswered) =>
    ∃ message, rehearsal.connection.article = some message ∧ Waits rehearsal files (.article message)
  | some (.stage .doStat) => Idles rehearsal files .command ∧ cr ∉ rehearsal.connection.msgid
  | some (.stage .statWritten) | some (.stage .statAnswered) => ∃ msgid, Waits rehearsal files (.stat msgid)
  | some (.stage .quitWritten) => Leaves rehearsal files []
  | some .timer => False
  | some (.connectHandler .connectSuccess) => Idles rehearsal files .command
  | some (.connectHandler _) => Leaves rehearsal files [] ∧ rehearsal.connection.state ≠ .connectedAndAuthenticated
  | some (.postHandler message .postSuccess) => Idles rehearsal (files ++ [message.article.wire]) .command
  | some (.postHandler message .postFailureConnectionError) => Leaves rehearsal files [message.article.wire]
  | some (.postHandler _ _) => False
  | some (.statHandler _ .connectionError) => Leaves rehearsal files []
  | some (.statHandler _ _) => False
  | none =>
    Leaves rehearsal files more ∧
      (rehearsal.connection.state = .connectedAndAuthenticated → more = [] ∧ Idles rehearsal files .command)

/-- Nothing is given up. -/
abbrev Carries (rehearsal : Rehearsal) (files : List Bytes) : Prop := Stands rehearsal files [] rehearsal.pending

/-- The thread's steps keep what the client relies on. -/
theorem moves_stands (moves : Moves before after) {pending : Option (Handler Framed)}
    (stands : Stands before files more pending) : Stands after files more pending := by
  have connection : after.connection = before.connection := by
    obtain ⟨server, outgoing, said, rfl, -, -⟩ := moves
    rfl
  cases pending with
  | none =>
    refine ⟨moves.leaves stands.1, fun state => ?_⟩
    obtain ⟨nothing, idles⟩ := stands.2 (connection ▸ state)
    exact ⟨nothing, moves.idles (.inr rfl) idles⟩
  | some handler =>
    cases handler with
    | stage stage =>
      cases stage with
      | doConnect => exact moves.idles (.inl rfl) stands
      | resolved => exact moves.idles (.inl rfl) stands
      | connected => exact moves.idles (.inl rfl) stands
      | handshaken => exact moves.waits stands
      | greeted => exact moves.waits stands
      | usernameWritten => exact stands.imp fun name => moves.waits
      | usernameAnswered => exact stands.imp fun name => moves.waits
      | passwordWritten => exact stands.imp fun word => moves.waits
      | passwordAnswered => exact stands.imp fun word => moves.waits
      | doPost => exact moves.idles (.inr rfl) stands
      | postWritten => exact moves.waits stands
      | postAnswered => exact moves.waits stands
      | articleWritten => exact stands.imp fun message told => ⟨connection ▸ told.1, moves.waits told.2⟩
      | articleAnswered => exact stands.imp fun message told => ⟨connection ▸ told.1, moves.waits told.2⟩
      | doStat => exact ⟨moves.idles (.inr rfl) stands.1, connection ▸ stands.2⟩
      | statWritten => exact stands.imp fun msgid => moves.waits
      | statAnswered => exact stands.imp fun msgid => moves.waits
      | quitWritten => exact moves.leaves stands
    | timer => exact stands.elim
    | connectHandler result =>
      cases result with
      | connectSuccess => exact moves.idles (.inr rfl) stands
      | _ => exact ⟨moves.leaves stands.1, connection ▸ stands.2⟩
    | postHandler message result =>
      cases result with
      | postSuccess => exact moves.idles (.inr rfl) stands
      | postFailureConnectionError => exact moves.leaves stands
      | _ => exact stands.elim
    | statHandler msgid result =>
      cases result with
      | connectionError => exact moves.leaves stands
      | _ => exact stands.elim

end Steps

section Client

variable {rehearsal after : Rehearsal} {connection : Connection Framed} {stage : Stage} {outcome : Outcome}
  {files : List Bytes} {talk : Talk}

private theorem foldl_kept (calls : List (Call Framed)) (rehearsal : Rehearsal) :
    (calls.foldl ask rehearsal).connection = rehearsal.connection ∧
      (calls.foldl ask rehearsal).pending = (calls.filterMap Call.handler?).getLast?.or rehearsal.pending ∧
      (calls.foldl ask rehearsal).posts = rehearsal.posts ∧ (calls.foldl ask rehearsal).reports = rehearsal.reports := by
  induction calls generalizing rehearsal with
  | nil => exact ⟨rfl, rfl, rfl, rfl⟩
  | cons call rest ih =>
    obtain ⟨connection, pending, posts, reports⟩ := ih (ask rehearsal call)
    have kept : (ask rehearsal call).connection = rehearsal.connection ∧
        (ask rehearsal call).pending = call.handler?.or rehearsal.pending ∧
        (ask rehearsal call).posts = rehearsal.posts ∧ (ask rehearsal call).reports = rehearsal.reports := by
      cases call <;> exact ⟨rfl, rfl, rfl, rfl⟩
    refine ⟨connection.trans kept.1, ?_, posts.trans kept.2.2.1, reports.trans kept.2.2.2⟩
    rw [List.foldl_cons, pending, kept.2.1]
    cases handler : call.handler? with
    | none => simp [handler]
    | some found =>
      rw [List.filterMap_cons_some handler, List.getLast?_cons]
      cases (rest.filterMap Call.handler?).getLast? <;> rfl

theorem perform_kept (rehearsal : Rehearsal) (act : Act Framed) :
    (rehearsal.perform act).connection = act.1 ∧ (rehearsal.perform act).posts = rehearsal.posts ∧
      (rehearsal.perform act).reports = rehearsal.reports := by
  obtain ⟨connection, -, posts, reports⟩ := foldl_kept act.2 { rehearsal with connection := act.1, pending := none }
  exact ⟨connection, posts, reports⟩

theorem perform_pending (rehearsal : Rehearsal) {act : Act Framed} {handler : Handler Framed}
    (one : act.2.filterMap Call.handler? = [handler]) : (rehearsal.perform act).pending = some handler := by
  have pending := (foldl_kept act.2 { rehearsal with connection := act.1, pending := none }).2.1
  rw [one] at pending
  exact pending

theorem perform_timer (rehearsal : Rehearsal) (connection timed : Connection Framed) (calls : List (Call Framed)) :
    rehearsal.perform (connection, timed.timeoutNextAsyncOperation ++ calls) = rehearsal.perform (connection, calls) := by
  rw [timeoutNextAsyncOperation]
  split <;> rfl

theorem perform_preceded (rehearsal : Rehearsal) (act : Act Framed) :
    rehearsal.perform (preceded [.cancelTimer] act) = rehearsal.perform act :=
  rfl

theorem perform_readLine (rehearsal : Rehearsal) (connection : Connection Framed) (stage : Stage) :
    rehearsal.perform (connection.readLine stage) = { rehearsal with connection, pending := some (.stage stage) } :=
  perform_timer ..

theorem perform_write (rehearsal : Rehearsal) (connection : Connection Framed) (buffers : Bytes) (stage : Stage) :
    rehearsal.perform (connection.write buffers stage) =
      { rehearsal with
        connection, pending := some (.stage stage), outgoing := rehearsal.outgoing ++ buffers } :=
  perform_timer ..

theorem perform_connectHandler (rehearsal : Rehearsal) (connection : Connection Framed) (result : ConnectResult) :
    rehearsal.perform (connection.connectHandlerCallback result) =
      { rehearsal with connection, pending := some (.connectHandler result) } :=
  rfl

theorem perform_statHandler (rehearsal : Rehearsal) (connection : Connection Framed) (result : StatResult) :
    rehearsal.perform (connection.statHandlerCallback result) = { rehearsal with
      connection := { connection with state := .connectedAndAuthenticated, msgid := [] }
      pending := some (.statHandler connection.msgid result) } :=
  rfl

theorem perform_postHandler (rehearsal : Rehearsal) {message : Framed} (held : connection.article = some message)
    (result : PostResult) : rehearsal.perform (connection.postHandlerCallback result) = { rehearsal with
      connection := { connection with state := .connectedAndAuthenticated, article := none }
      pending := some (.postHandler message result) } := by
  simp only [postHandlerCallback, held]
  rfl

/-- A function that waits for no line, and opens no TCP connection. -/
theorem complete_silent (silent : Session.reads stage = false) (connected : stage ≠ Stage.connected)
    (taken : rehearsal.complete stage outcome = some after) :
    after = rehearsal.perform (rehearsal.connection.run Framed.article stage outcome) := by
  simp only [complete, Session.arrives, silent, Bool.false_eq_true, ite_false, List.isPrefixOf, ite_true,
    List.length_nil, List.drop_zero, connected, false_and, Option.some.injEq] at taken
  exact taken.symm

/-- The first line that arrives is the whole reply. -/
theorem waits_line (waits : Waits rehearsal files talk) {text rest line more : Bytes}
    (arrives : unread rehearsal = text ++ rest) (found : Lines.next cr lf text = some (line, more)) :
    talk.reply = line ++ crlf ∧ more = [] ∧ rest = [] ∧
      Rests (files ++ talk.stored) talk.final rehearsal.server rehearsal.outgoing := by
  have whole := Lines.next_append found rest
  rw [← arrives] at whole
  have said : unread rehearsal ≠ [] := by
    intro empty
    rw [empty] at whole
    cases whole
  have replied := (Serves.sends waits).resolve_left said
  have answers : talk.reply ≠ [] := replied ▸ said
  obtain ⟨single, clean, reply⟩ := talk.reply_single.resolve_left answers
  rw [replied, reply, next_closed clean, Option.some.injEq, Prod.mk.injEq] at whole
  obtain ⟨rfl, nothing⟩ := whole
  have both := List.append_eq_nil_iff.mp nothing.symm
  exact ⟨reply, both.1, both.2, Serves.heard waits replied answers⟩

/-- A function that waits for a line gets the reply, or no line. -/
theorem complete_reading (waits : Waits rehearsal files talk) (reading : Session.reads stage = true)
    (taken : rehearsal.complete stage outcome = some after) :
    (talk.reply ≠ [] ∧
      rehearsal.connection.receiveLine outcome = (some talk.reply, { rehearsal.connection with readbuf := [] }) ∧
      Rests (files ++ talk.stored) talk.final rehearsal.server rehearsal.outgoing ∧
      after = { rehearsal with incoming := [] }.perform
        (rehearsal.connection.run Framed.article stage outcome)) ∨
    (∃ readbuf incoming,
      rehearsal.connection.receiveLine outcome = (none, { rehearsal.connection with readbuf }) ∧
      after = { rehearsal with incoming }.perform (rehearsal.connection.run Framed.article stage outcome)) := by
  have connected : stage ≠ Stage.connected := by
    rintro rfl
    cases reading
  simp only [complete, Session.arrives, reading, ite_true, connected, false_and, ite_false] at taken
  cases ready : Lines.next cr lf rehearsal.connection.readbuf with
  | some found =>
    obtain ⟨line, more⟩ := found
    obtain ⟨reply, rfl, nothing, rests⟩ := waits_line waits rfl ready
    simp only [ready, Option.isSome_some, ite_true, List.isPrefixOf, List.length_nil, List.drop_zero,
      Option.some.injEq] at taken
    left
    refine ⟨by simp [reply, crlf], ?_, rests, ?_⟩
    · simp only [receiveLine, ready, reply]
    · rw [← taken, nothing]
  | none =>
    simp only [ready, Option.isSome_none, Bool.false_eq_true, ite_false] at taken
    split at taken
    next arrived =>
      obtain ⟨rest, split⟩ := List.isPrefixOf_iff_prefix.mp arrived
      rw [← split, List.drop_left, Option.some.injEq] at taken
      have arrives : unread rehearsal = rehearsal.connection.readbuf ++ outcome.received ++ rest := by
        rw [unread, ← split, List.append_assoc]
      cases complete : Lines.next cr lf (rehearsal.connection.readbuf ++ outcome.received) with
      | none =>
        right
        refine ⟨rehearsal.connection.readbuf ++ outcome.received, rest, ?_, taken.symm⟩
        simp only [receiveLine, ready, complete, ite_self]
      | some found =>
        obtain ⟨line, more⟩ := found
        obtain ⟨reply, rfl, rfl, rests⟩ := waits_line waits arrives complete
        by_cases failed : outcome.failed = true
        · right
          refine ⟨rehearsal.connection.readbuf ++ outcome.received, [], ?_, taken.symm⟩
          simp only [receiveLine, ready, failed, ite_true]
        · left
          refine ⟨by simp [reply, crlf], ?_, rests, taken.symm⟩
          simp only [receiveLine, ready, complete, if_neg failed, reply]
    · cases taken

/-- The connection reads its line and goes on, or gives up. -/
theorem reading_stands (waits : Waits rehearsal files talk) (reading : Session.reads stage = true)
    (taken : rehearsal.complete stage outcome = some after) {good : Bytes → Connection Framed → Act Framed}
    {bad : Connection Framed → Act Framed}
    (runs : rehearsal.connection.run Framed.article stage outcome = rehearsal.connection.onLine outcome good bad)
    (hears : talk.reply ≠ [] → Rests (files ++ talk.stored) talk.final rehearsal.server rehearsal.outgoing →
      Carries ({ rehearsal with incoming := [] }.perform
        (good talk.reply { rehearsal.connection with readbuf := [] })) files)
    (fails : ∀ readbuf incoming,
      Carries ({ rehearsal with incoming }.perform (bad { rehearsal.connection with readbuf })) files) :
    Carries after files := by
  rcases complete_reading waits reading taken with ⟨said, received, rests, rfl⟩ | ⟨readbuf, incoming, received, rfl⟩
  · rw [runs, onLine, received]
    exact hears said rests
  · rw [runs, onLine, received]
    exact fails readbuf incoming

/-- The connection has written what it had to, and now reads, or gives up. -/
theorem written_stands {good bad : Connection Framed → Act Framed} {answeredStage : Stage}
    (after_eq : after = rehearsal.perform (rehearsal.connection.onWritten outcome good bad))
    (reading : good rehearsal.connection = rehearsal.connection.readLine answeredStage)
    (waits : Carries { rehearsal with pending := some (.stage answeredStage) } files)
    (fails : Carries (rehearsal.perform (bad rehearsal.connection)) files) : Carries after files := by
  rw [after_eq, onWritten]
  split
  · exact fails
  · rw [perform_preceded, reading, perform_readLine]
    exact waits

/-- The client says the next thing to a thread that is ready for it. -/
theorem write_waits (rests : Rests files talk.start rehearsal.server rehearsal.outgoing) (empty : connection.readbuf = [])
    (read : rehearsal.incoming = []) {line : Bytes} (single : talk.text = line ++ crlf) (clean : cr ∉ line)
    (answers : usenetSession ⟨talk.start, files⟩ (line ++ crlf) = (⟨talk.final, files⟩, talk.reply))
    (nothing : talk.stored = []) :
    Waits { rehearsal with connection, pending := some (.stage stage), outgoing := rehearsal.outgoing ++ talk.text }
      files talk := by
  have silent : unread { rehearsal with
      connection, pending := some (.stage stage), outgoing := rehearsal.outgoing ++ talk.text } = [] := by
    rw [unread, empty, read]
    rfl
  rw [Waits, silent]
  exact rests.asked single clean answers nothing

theorem connect_fails (leaves : Leaves rehearsal files []) (state : connection.state ≠ .connectedAndAuthenticated)
    {result : ConnectResult} (failed : result ≠ .connectSuccess) :
    Carries (rehearsal.perform (connection.connectHandlerCallback result)) files := by
  rw [perform_connectHandler]
  have later : Leaves { rehearsal with connection, pending := some (.connectHandler result) } files [] :=
    leaves.frame rfl rfl
  cases result with
  | connectSuccess => exact absurd rfl failed
  | _ => exact ⟨later, state⟩

theorem post_fails {message : Framed} (held : connection.article = some message)
    (leaves : Leaves rehearsal files [message.article.wire]) :
    Carries (rehearsal.perform (connection.postHandlerCallback .postFailureConnectionError)) files := by
  rw [perform_postHandler rehearsal held]
  exact leaves.frame rfl rfl

theorem stat_fails (leaves : Leaves rehearsal files []) :
    Carries (rehearsal.perform (connection.statHandlerCallback .connectionError)) files := by
  rw [perform_statHandler]
  exact leaves.frame rfl rfl

theorem connecting_stands (stands : Stands rehearsal files [] (some (.stage stage)))
    (fits : Fits rehearsal.connection (.stage stage))
    (early : stage = .doConnect ∨ stage = .resolved ∨ stage = Stage.connected ∨ stage = .handshaken)
    (taken : rehearsal.complete stage outcome = some after) : Carries after files := by
  have state : rehearsal.connection.state ≠ .connectedAndAuthenticated := by
    rw [fits.1]
    rcases early with rfl | rfl | rfl | rfl <;> decide
  rcases early with rfl | rfl | rfl | rfl
  · have idles : Idles rehearsal files .accept := stands
    rw [complete_silent rfl (by decide) taken]
    exact ⟨idles.rests, idles.empty⟩
  · have idles : Idles rehearsal files .accept := stands
    rw [complete_silent rfl (by decide) taken]
    simp only [Connection.run]
    split
    · exact connect_fails (idles.leaves (.inl rfl)) state (by decide)
    · rw [perform_timer]
      exact ⟨idles.rests, idles.empty⟩
  · obtain ⟨rests, empty⟩ := stands
    simp only [complete, Session.arrives, Session.reads, Bool.false_eq_true, ite_false, List.isPrefixOf, ite_true,
      List.length_nil, List.drop_zero, true_and, Option.some.injEq] at taken
    subst taken
    simp only [Connection.run]
    by_cases failed : outcome.failed = true
    · simp only [failed, Bool.true_eq_false, ite_false, ite_true]
      exact connect_fails (.rests rests (.inl rfl)) state (by decide)
    · have succeeded : outcome.failed = false := by simpa using failed
      simp only [succeeded, ite_true, Bool.false_eq_true, ite_false]
      have greets : Serves files .greeting { rehearsal.server with place := .handshake } rehearsal.outgoing
          (unread rehearsal) := by
        rw [empty]
        generalize rehearsal.server = server at rests
        generalize rehearsal.outgoing = outgoing at rests
        cases rests with
        | ready => exact .greets rfl
        | lost started _ => exact absurd rfl started
      split
      · rw [perform_preceded, perform_timer]
        exact greets
      · rw [perform_preceded, doAuthenticate, perform_readLine]
        exact greets
  · have waits : Waits rehearsal files .greeting := stands
    rw [complete_silent rfl (by decide) taken]
    simp only [Connection.run]
    split
    · exact connect_fails (waits.leaves (List.prefix_refl _)) state (by decide)
    · rw [perform_preceded, doAuthenticate, perform_readLine]
      exact waits

/-- The answer to the credentials is that they are accepted. -/
theorem authenticating_stands (stands : Stands rehearsal files [] (some (.stage stage)))
    (fits : Fits rehearsal.connection (.stage stage))
    (username : cr ∉ rehearsal.connection.conninfo.username) (password : cr ∉ rehearsal.connection.conninfo.password)
    (early : stage = .greeted ∨ stage = .usernameWritten ∨ stage = .usernameAnswered ∨ stage = .passwordWritten ∨
      stage = .passwordAnswered)
    (taken : rehearsal.complete stage outcome = some after) : Carries after files := by
  have state : rehearsal.connection.state ≠ .connectedAndAuthenticated := by
    rw [fits.1]
    rcases early with rfl | rfl | rfl | rfl | rfl <;> decide
  have gives {talk : Talk} (waits : Waits rehearsal files talk) (nothing : talk.stored = []) (readbuf incoming : Bytes) :
      Carries ({ rehearsal with incoming }.perform
        (connectHandlerCallback { rehearsal.connection with readbuf } .fatalConnectError)) files := by
    have leaves : Leaves rehearsal files [] := waits.leaves (nothing ▸ List.prefix_refl _)
    apply connect_fails
    · exact leaves.frame rfl rfl
    · exact state
    · decide
  rcases early with rfl | rfl | rfl | rfl | rfl
  · refine reading_stands stands rfl taken rfl (fun _ rests => ?_) (gives stands rfl)
    have welcome : ¬ Talk.greeting.reply.head? ≠ some 50 := by decide
    have clean : cr ∉ Protocol.authinfouser ++ rehearsal.connection.conninfo.username :=
      clean_append (by decide) username
    have rests := rests.kept rfl
    rw [if_neg welcome, sendAuthinfoUsername, perform_write]
    exact ⟨rehearsal.connection.conninfo.username, write_waits rests rfl rfl rfl clean rfl rfl⟩
  · obtain ⟨name, waits⟩ := stands
    apply written_stands (complete_silent rfl (by decide) taken) rfl
    · exact ⟨name, waits⟩
    · exact connect_fails (waits.leaves (List.prefix_refl _)) state (by decide)
  · obtain ⟨name, waits⟩ := stands
    refine reading_stands waits rfl taken rfl (fun _ rests => ?_) (gives waits rfl)
    have required : (ascii "381").isPrefixOf (Talk.username name).reply = true :=
      (by decide : (ascii "381").isPrefixOf serverAuth = true)
    have clean : cr ∉ Protocol.authinfopass ++ rehearsal.connection.conninfo.password :=
      clean_append (by decide) password
    have rests := rests.kept rfl
    rw [if_pos required, sendAuthinfoPassword, perform_write]
    exact ⟨rehearsal.connection.conninfo.password, write_waits rests rfl rfl rfl clean rfl rfl⟩
  · obtain ⟨word, waits⟩ := stands
    apply written_stands (complete_silent rfl (by decide) taken) rfl
    · exact ⟨word, waits⟩
    · exact connect_fails (waits.leaves (List.prefix_refl _)) state (by decide)
  · obtain ⟨word, waits⟩ := stands
    refine reading_stands waits rfl taken rfl (fun _ rests => ?_) (gives waits rfl)
    have accepted : (Talk.password word).reply.head? = some 50 := (by decide : serverAuthSuccess.head? = some 50)
    rw [checkAuthinfoResult, if_pos accepted, perform_connectHandler]
    have rests := rests.kept rfl
    exact ⟨rests, rfl⟩

theorem posting_stands (stands : Stands rehearsal files [] (some (.stage stage)))
    (fits : Fits rehearsal.connection (.stage stage))
    (nullFree : ∀ message, rehearsal.connection.article = some message → 0 ∉ message.article.wire)
    (late : stage = .doPost ∨ stage = .postWritten ∨ stage = .postAnswered ∨ stage = .articleWritten ∨
      stage = .articleAnswered)
    (taken : rehearsal.complete stage outcome = some after) : Carries after files := by
  have posts : posting stage = true := by rcases late with rfl | rfl | rfl | rfl | rfl <;> rfl
  obtain ⟨message, held⟩ := Option.isSome_iff_exists.mp (fits.2.trans posts)
  have gives {talk : Talk} (waits : Waits rehearsal files talk) (stored : talk.stored <+: [message.article.wire])
      (readbuf incoming : Bytes) :
      Carries ({ rehearsal with incoming }.perform
        (postHandlerCallback { rehearsal.connection with readbuf } .postFailureConnectionError)) files :=
    post_fails held ((waits.leaves stored).frame rfl rfl)
  rcases late with rfl | rfl | rfl | rfl | rfl
  · obtain ⟨rests, empty⟩ := stands
    rw [complete_silent rfl (by decide) taken]
    have both := List.append_eq_nil_iff.mp empty
    have line : Talk.post.text = ascii "POST" ++ crlf := by decide
    simp only [Connection.run, doPost, perform_write]
    exact write_waits rests both.1 both.2 line (by decide) rfl rfl
  · have waits : Waits rehearsal files .post := stands
    apply written_stands (complete_silent rfl (by decide) taken) rfl
    · exact waits
    · exact post_fails held (waits.leaves (List.nil_prefix ..))
  · have waits : Waits rehearsal files .post := stands
    refine reading_stands waits rfl taken rfl (fun _ rests => ?_) (gives waits (List.nil_prefix ..))
    have invited : ¬ Talk.post.reply.head? = some 52 := by decide
    rw [if_neg invited]
    simp only [held, sendArticle, perform_write]
    refine ⟨message, rfl, ?_⟩
    have rests := rests.kept rfl
    exact rests.receives (nullFree message held)
  · obtain ⟨other, same, waits⟩ := stands
    obtain rfl := Option.some.inj (held.symm.trans same)
    apply written_stands (complete_silent rfl (by decide) taken) rfl
    · exact ⟨message, held, waits⟩
    · exact post_fails held (waits.leaves (List.prefix_refl _))
  · obtain ⟨other, same, waits⟩ := stands
    obtain rfl := Option.some.inj (held.symm.trans same)
    refine reading_stands waits rfl taken rfl (fun _ rests => ?_) (gives waits (List.prefix_refl _))
    have accepted : (Talk.article message).reply.head? = some 50 :=
      (by decide : serverArticlePosted.head? = some 50)
    have given : { rehearsal.connection with readbuf := [] }.article = some message := held
    rw [if_pos accepted, perform_postHandler _ given]
    exact ⟨rests, rfl⟩

/-- The server never answers `STAT`. -/
theorem stating_stands (stands : Stands rehearsal files [] (some (.stage stage)))
    (early : stage = .doStat ∨ stage = .statWritten ∨ stage = .statAnswered)
    (taken : rehearsal.complete stage outcome = some after) : Carries after files := by
  rcases early with rfl | rfl | rfl
  · obtain ⟨⟨rests, empty⟩, clean⟩ := stands
    rw [complete_silent rfl (by decide) taken]
    have both := List.append_eq_nil_iff.mp empty
    have whole : cr ∉ Protocol.stat ++ rehearsal.connection.msgid := clean_append (by decide) clean
    simp only [Connection.run, doStat, perform_write]
    exact ⟨rehearsal.connection.msgid, write_waits rests both.1 both.2 rfl whole rfl rfl⟩
  · obtain ⟨msgid, waits⟩ := stands
    apply written_stands (complete_silent rfl (by decide) taken) rfl
    · exact ⟨msgid, waits⟩
    · exact stat_fails (waits.leaves (List.prefix_refl _))
  · obtain ⟨msgid, waits⟩ := stands
    refine reading_stands waits rfl taken rfl
      (fun said _ => absurd rfl said) (fun readbuf incoming => ?_)
    have leaves : Leaves rehearsal files [] := waits.leaves (List.prefix_refl _)
    exact stat_fails (leaves.frame rfl rfl)

theorem complete_stands (stands : Stands rehearsal files [] (some (.stage stage)))
    (fits : Fits rehearsal.connection (.stage stage))
    (username : cr ∉ rehearsal.connection.conninfo.username) (password : cr ∉ rehearsal.connection.conninfo.password)
    (nullFree : ∀ message, rehearsal.connection.article = some message → 0 ∉ message.article.wire)
    (taken : rehearsal.complete stage outcome = some after) : Carries after files := by
  cases stage with
  | doConnect => exact connecting_stands stands fits (by simp) taken
  | resolved => exact connecting_stands stands fits (by simp) taken
  | connected => exact connecting_stands stands fits (by simp) taken
  | handshaken => exact connecting_stands stands fits (by simp) taken
  | greeted => exact authenticating_stands stands fits username password (by simp) taken
  | usernameWritten => exact authenticating_stands stands fits username password (by simp) taken
  | usernameAnswered => exact authenticating_stands stands fits username password (by simp) taken
  | passwordWritten => exact authenticating_stands stands fits username password (by simp) taken
  | passwordAnswered => exact authenticating_stands stands fits username password (by simp) taken
  | doPost => exact posting_stands stands fits nullFree (by simp) taken
  | postWritten => exact posting_stands stands fits nullFree (by simp) taken
  | postAnswered => exact posting_stands stands fits nullFree (by simp) taken
  | articleWritten => exact posting_stands stands fits nullFree (by simp) taken
  | articleAnswered => exact posting_stands stands fits nullFree (by simp) taken
  | doStat => exact stating_stands stands (by simp) taken
  | statWritten => exact stating_stands stands (by simp) taken
  | statAnswered => exact stating_stands stands (by simp) taken
  | quitWritten =>
    have leaves : Leaves rehearsal files [] := stands
    rw [complete_silent rfl (by decide) taken]
    refine ⟨leaves.frame rfl rfl, fun state => ?_⟩
    have gone := (close_disconnects rehearsal.connection outcome).1.symm.trans state
    cases gone

theorem onLine_conninfo {good : Bytes → Connection Framed → Act Framed} {bad : Connection Framed → Act Framed}
    (goodKeeps : ∀ line other, (good line other).1.conninfo = other.conninfo)
    (badKeeps : ∀ other, (bad other).1.conninfo = other.conninfo) :
    (connection.onLine outcome good bad).1.conninfo = connection.conninfo := by
  obtain ⟨readbuf, rest⟩ := receiveLine_readbuf connection outcome
  rw [onLine]
  split
  next line other found =>
    rw [found] at rest
    cases rest
    exact goodKeeps line _
  next other found =>
    rw [found] at rest
    cases rest
    exact badKeeps _

theorem onWritten_conninfo {good bad : Connection Framed → Act Framed}
    (goodKeeps : (good connection).1.conninfo = connection.conninfo)
    (badKeeps : (bad connection).1.conninfo = connection.conninfo) :
    (connection.onWritten outcome good bad).1.conninfo = connection.conninfo := by
  rw [onWritten]
  split
  · exact badKeeps
  · exact goodKeeps

/-- A connection keeps the credentials it was made with. -/
theorem run_conninfo (connection : Connection Framed) (stage : Stage) (outcome : Outcome) :
    (connection.run Framed.article stage outcome).1.conninfo = connection.conninfo := by
  have checks (line : Bytes) (other : Connection Framed) :
      (other.checkAuthinfoResult line).1.conninfo = other.conninfo := by
    rw [checkAuthinfoResult]
    split <;> rfl
  cases stage with
  | doConnect => rfl
  | resolved =>
    simp only [Connection.run]
    split <;> rfl
  | connected =>
    simp only [Connection.run]
    split
    · rfl
    · split <;> rfl
  | handshaken =>
    simp only [Connection.run]
    split <;> rfl
  | greeted =>
    apply onLine_conninfo
    · intro line other
      split <;> rfl
    · exact fun other => rfl
  | usernameAnswered =>
    apply onLine_conninfo
    · intro line other
      split
      · rfl
      · exact checks line other
    · exact fun other => rfl
  | passwordAnswered =>
    apply onLine_conninfo
    · exact checks
    · exact fun other => rfl
  | postAnswered =>
    apply onLine_conninfo
    · intro line other
      split
      · rfl
      · split <;> rfl
    · exact fun other => rfl
  | articleAnswered =>
    apply onLine_conninfo
    · intro line other
      split <;> rfl
    · exact fun other => rfl
  | statAnswered =>
    apply onLine_conninfo
    · intro line other
      split <;> rfl
    · exact fun other => rfl
  | usernameWritten => exact onWritten_conninfo rfl rfl
  | passwordWritten => exact onWritten_conninfo rfl rfl
  | postWritten => exact onWritten_conninfo rfl rfl
  | articleWritten => exact onWritten_conninfo rfl rfl
  | statWritten => exact onWritten_conninfo rfl rfl
  | doPost => rfl
  | doStat => rfl
  | quitWritten =>
    simp only [Connection.run, close]
    split <;> rfl

theorem complete_kept (taken : rehearsal.complete stage outcome = some after) :
    after.connection = (rehearsal.connection.run Framed.article stage outcome).1 ∧ after.posts = rehearsal.posts ∧
      after.reports = rehearsal.reports := by
  simp only [complete] at taken
  split at taken
  · cases taken
    exact perform_kept _ _
  · cases taken

/-- The articles the client has not been told about. -/
def held (rehearsal : Rehearsal) : List Framed :=
  rehearsal.connection.article.toList ++ rehearsal.pending.toList.flatMap articles

theorem complete_held (fits : Fits rehearsal.connection (.stage stage))
    (pending : rehearsal.pending = some (.stage stage)) (taken : rehearsal.complete stage outcome = some after) :
    held after = held rehearsal ∧ (∀ handler, after.pending = some handler → Fits after.connection handler) ∧
      (after.pending = none → after.connection.article = none) := by
  have before : held rehearsal = rehearsal.connection.article.toList := by
    simp [held, pending, articles]
  by_cases staying : owns (.stage stage : Handler Framed) = true
  · obtain ⟨handler, one, -, later, kept⟩ := run_continues Framed.article outcome fits staying
    have connection := (complete_kept taken).1
    have next : after.pending = some handler := by
      simp only [complete] at taken
      split at taken
      · cases taken
        exact perform_pending _ one
      · cases taken
    refine ⟨?_, ?_, ?_⟩
    · rw [before, ← kept, held, next, connection]
      simp
    · intro other same
      cases next.symm.trans same
      exact connection ▸ later
    · intro nothing
      cases next.symm.trans nothing
  · have quits : stage = .quitWritten := by
      cases stage with
      | quitWritten => rfl
      | _ => exact absurd rfl staying
    subst quits
    have empty : rehearsal.connection.article = none := by simpa [posting] using fits.2
    rw [complete_silent rfl (by decide) taken]
    have gone : (rehearsal.connection.close outcome).article = none :=
      (close_disconnects rehearsal.connection outcome).2.trans empty
    refine ⟨?_, (fun _ same => by cases same), fun _ => gone⟩
    rw [before, empty]
    show (rehearsal.connection.close outcome).article.toList ++ [] = []
    rw [gone]
    rfl

end Client

section Runs

variable {rehearsal after : Rehearsal} {done failed : List Framed}

/-- The reports of articles that were posted, and of one that was not. -/
def reported (done failed : List Framed) : List (Framed × PostResult) :=
  done.map (fun message => (message, .postSuccess)) ++
    failed.map (fun message => (message, .postFailureConnectionError))

structure Rehearses (rehearsal : Rehearsal) (done failed : List Framed) : Prop where
  stands : Stands rehearsal (shelf done) (shelf failed) rehearsal.pending
  fits : ∀ handler, rehearsal.pending = some handler → Fits rehearsal.connection handler
  free : rehearsal.pending = none → rehearsal.connection.article = none
  username : cr ∉ rehearsal.connection.conninfo.username
  password : cr ∉ rehearsal.connection.conninfo.password
  nullFree : ∀ message ∈ rehearsal.posts, 0 ∉ message.article.wire
  posts : rehearsal.posts = done ++ failed ++ held rehearsal
  reports : rehearsal.reports = reported done failed
  gone : failed ≠ [] → rehearsal.pending = none
  single : failed.length ≤ 1

theorem shelf_append (first rest : List Framed) : shelf (first ++ rest) = shelf first ++ shelf rest := List.map_append ..

theorem Rehearses.pending (rehearses : Rehearses rehearsal done failed) {handler : Handler Framed}
    (pending : rehearsal.pending = some handler) : failed = [] := by
  by_contra lost
  have nothing := pending.symm.trans (rehearses.gone lost)
  cases nothing

/-- A client that is ready has lost nothing. -/
theorem Rehearses.ready (rehearses : Rehearses rehearsal done failed) (pending : rehearsal.pending = none)
    (state : rehearsal.connection.state = .connectedAndAuthenticated) :
    failed = [] ∧ Idles rehearsal (shelf done) .command := by
  have stands := rehearses.stands
  rw [pending] at stands
  obtain ⟨nothing, idles⟩ := stands.2 state
  exact ⟨List.map_eq_nil_iff.mp nothing, idles⟩

theorem held_none (pending : rehearsal.pending = none) (empty : rehearsal.connection.article = none) :
    held rehearsal = [] := by
  rw [held, pending, empty]
  rfl

theorem asyncPost_rehearses {message : NullFree} {act : Act Framed} (rehearses : Rehearses rehearsal done failed)
    (pending : rehearsal.pending = none) (accepted : rehearsal.connection.asyncPost message.framed = (true, act)) :
    Rehearses ({ rehearsal with posts := rehearsal.posts ++ [message.framed] }.perform act) done failed := by
  simp only [asyncPost] at accepted
  split at accepted
  · cases accepted
  next ready =>
    rw [not_not] at ready
    cases accepted
    obtain ⟨rfl, idles⟩ := rehearses.ready pending ready
    have nothing := held_none pending (rehearses.free pending)
    refine ⟨⟨idles.rests, idles.empty⟩, ?_, (fun same => by cases same), rehearses.username, rehearses.password, ?_, ?_,
      rehearses.reports, (fun lost => absurd rfl lost), rehearses.single⟩
    · rintro handler ⟨⟩
      exact ⟨ready, rfl⟩
    · intro other member
      rcases List.mem_append.mp member with earlier | last
      · exact rehearses.nullFree other earlier
      · rw [List.mem_singleton.mp last]
        exact message.nullFree
    · have posts := rehearses.posts
      rw [nothing, List.append_nil] at posts
      show rehearsal.posts ++ [message.framed] = _
      rw [posts]
      rfl

theorem asyncStat_rehearses {mid : PlainId} {act : Act Framed} (rehearses : Rehearses rehearsal done failed)
    (pending : rehearsal.pending = none) (accepted : rehearsal.connection.asyncStat mid.msgid = (true, act)) :
    Rehearses (rehearsal.perform act) done failed := by
  simp only [asyncStat] at accepted
  split at accepted
  · cases accepted
  next ready =>
    rw [not_not] at ready
    cases accepted
    obtain ⟨rfl, idles⟩ := rehearses.ready pending ready
    have empty := rehearses.free pending
    refine ⟨⟨⟨idles.rests, idles.empty⟩, mid.plain⟩, ?_, (fun same => by cases same), rehearses.username,
      rehearses.password, rehearses.nullFree, ?_, rehearses.reports, (fun lost => absurd rfl lost), rehearses.single⟩
    · rintro handler ⟨⟩
      refine ⟨ready, ?_⟩
      rw [(perform_kept ..).1]
      simp [empty, posting]
    · have posts := rehearses.posts
      rw [held_none pending empty] at posts
      show rehearsal.posts = _
      rw [posts]
      show _ = _ ++ (rehearsal.connection.article.toList ++ [])
      rw [empty]
      rfl

theorem asyncGracefulDisconnect_rehearses {act : Act Framed} (rehearses : Rehearses rehearsal done failed)
    (pending : rehearsal.pending = none) (accepted : rehearsal.connection.asyncGracefulDisconnect = (true, act)) :
    Rehearses (rehearsal.perform act) done failed := by
  simp only [asyncGracefulDisconnect] at accepted
  split at accepted
  · cases accepted
  next ready =>
    rw [not_not] at ready
    cases accepted
    obtain ⟨rfl, idles⟩ := rehearses.ready pending ready
    have empty := rehearses.free pending
    have both := List.append_eq_nil_iff.mp idles.empty
    rw [perform_write]
    have waits : Waits { rehearsal with
        connection := { rehearsal.connection with state := .busy }
        pending := some (.stage .quitWritten)
        outgoing := rehearsal.outgoing ++ Talk.quit.text } (shelf done) .quit :=
      write_waits idles.rests both.1 both.2 (by decide : Protocol.quit = ascii "QUIT" ++ crlf) (by decide) rfl rfl
    refine ⟨waits.leaves (List.prefix_refl _), ?_, (fun same => by cases same), rehearses.username, rehearses.password,
      rehearses.nullFree, ?_, rehearses.reports, (fun lost => absurd rfl lost), rehearses.single⟩
    · rintro handler ⟨⟩
      exact ⟨rfl, by simp [empty, posting]⟩
    · have posts := rehearses.posts
      rw [held_none pending empty] at posts
      rw [posts, held]
      simp [empty, articles]

theorem complete_rehearses {stage : Stage} {outcome : Outcome} (rehearses : Rehearses rehearsal done failed)
    (pending : rehearsal.pending = some (.stage stage)) (taken : rehearsal.complete stage outcome = some after) :
    Rehearses after done failed := by
  obtain rfl := rehearses.pending pending
  have stands := rehearses.stands
  rw [pending] at stands
  have fits := rehearses.fits _ pending
  obtain ⟨connection, posts, reports⟩ := complete_kept taken
  obtain ⟨kept, laterFits, free⟩ := complete_held fits pending taken
  have conninfo : after.connection.conninfo = rehearsal.connection.conninfo := by
    rw [connection, run_conninfo]
  have nullFree : ∀ message, rehearsal.connection.article = some message → 0 ∉ message.article.wire := by
    intro message article
    apply rehearses.nullFree
    rw [rehearses.posts, held, article]
    simp
  refine ⟨complete_stands stands fits rehearses.username rehearses.password nullFree taken, laterFits, free, ?_, ?_, ?_,
    ?_, reports.trans rehearses.reports, (fun lost => absurd rfl lost), rehearses.single⟩
  · exact conninfo ▸ rehearses.username
  · exact conninfo ▸ rehearses.password
  · exact posts ▸ rehearses.nullFree
  · rw [posts, kept, rehearses.posts]

theorem close_conninfo (connection : Connection Framed) (outcome : Outcome) :
    (connection.close outcome).conninfo = connection.conninfo := by
  rw [close]
  split <;> rfl

/-- The connection is closed, and the client has no one to listen to. -/
theorem closed_rehearses {files more : List Bytes} {outcome : Outcome} {reports : List (Framed × PostResult)}
    (leaves : Leaves rehearsal files more) :
    Stands { rehearsal with connection := rehearsal.connection.close outcome, pending := none, reports } files more
      none := by
  refine ⟨leaves.frame rfl rfl, fun state => ?_⟩
  have gone := (close_disconnects rehearsal.connection outcome).1.symm.trans state
  cases gone

theorem report_rehearses {handler : Handler Framed} {outcome : Outcome} (rehearses : Rehearses rehearsal done failed)
    (pending : rehearsal.pending = some handler) (callback : ∀ stage, handler ≠ .stage stage) :
    ∃ done failed, Rehearses (rehearsal.report handler outcome) done failed := by
  obtain rfl := rehearses.pending pending
  have stands := rehearses.stands
  rw [pending] at stands
  have fits := rehearses.fits _ pending
  have posts := rehearses.posts
  rw [held, pending] at posts
  have idle {before : Rehearsal} {files : List Bytes} (idles : Idles before files .command) :
      Stands { before with pending := none } files [] none :=
    ⟨(idles.leaves (.inr rfl)).frame rfl rfl, fun _ => ⟨rfl, idles.rests, idles.empty⟩⟩
  have shut : (rehearsal.connection.close outcome).conninfo = rehearsal.connection.conninfo := close_conninfo ..
  cases handler with
  | stage stage => exact absurd rfl (callback stage)
  | timer => exact stands.elim
  | connectHandler result =>
    have empty : rehearsal.connection.article = none := by
      cases result with
      | connectSuccess => exact fits.article
      | _ => exact fits
    have all : rehearsal.posts = done ++ [] ++ held { rehearsal with pending := none } := by
      rw [posts, held, empty]
      rfl
    refine ⟨done, [], ?_, (fun _ same => by cases same), fun _ => empty, rehearses.username, rehearses.password,
      rehearses.nullFree, all, rehearses.reports, fun _ => rfl, Nat.zero_le _⟩
    cases result with
    | connectSuccess => exact idle stands
    | _ => exact ⟨stands.1.frame rfl rfl, fun state => absurd state stands.2⟩
  | statHandler msgid result =>
    have empty : rehearsal.connection.article = none := fits.article
    cases result with
    | connectionError =>
      have gone : (rehearsal.connection.close outcome).article = none :=
        (close_disconnects rehearsal.connection outcome).2.trans empty
      refine ⟨done, [], closed_rehearses stands, (fun _ same => by cases same), fun _ => gone,
        shut ▸ rehearses.username, shut ▸ rehearses.password, rehearses.nullFree, ?_, rehearses.reports, fun _ => rfl, Nat.zero_le _⟩
      show rehearsal.posts = _ ++ ((rehearsal.connection.close outcome).article.toList ++ [])
      rw [posts, empty, gone]
      rfl
    | _ => exact stands.elim
  | postHandler message result =>
    have empty : rehearsal.connection.article = none := fits.article
    rw [empty] at posts
    cases result with
    | postSuccess =>
      have stored := idle stands
      rw [show shelf done ++ [message.article.wire] = shelf (done ++ [message]) from (shelf_append done [message]).symm]
        at stored
      refine ⟨done ++ [message], [], ⟨stored.1.frame rfl rfl, fun state => ?_⟩, (fun _ same => by cases same),
        fun _ => empty, rehearses.username, rehearses.password, rehearses.nullFree, ?_, ?_, fun _ => rfl, Nat.zero_le _⟩
      · obtain ⟨nothing, idles⟩ := stored.2 state
        exact ⟨nothing, idles.rests, idles.empty⟩
      · show rehearsal.posts = _ ++ (rehearsal.connection.article.toList ++ [])
        rw [posts, empty]
        simp [articles]
      · show rehearsal.reports ++ [(message, .postSuccess)] = _
        rw [rehearses.reports]
        simp [reported]
    | postFailureConnectionError =>
      have gone : (rehearsal.connection.close outcome).article = none :=
        (close_disconnects rehearsal.connection outcome).2.trans empty
      refine ⟨done, [message], closed_rehearses stands, (fun _ same => by cases same), fun _ => gone,
        shut ▸ rehearses.username, shut ▸ rehearses.password, rehearses.nullFree, ?_, ?_, fun _ => rfl, Nat.le_refl _⟩
      · show rehearsal.posts = _ ++ ((rehearsal.connection.close outcome).article.toList ++ [])
        rw [posts, gone]
        simp [articles]
      · show rehearsal.reports ++ [(message, .postFailureConnectionError)] = _
        rw [rehearses.reports]
        simp [reported]
    | _ => exact stands.elim

theorem moves_rehearses (rehearses : Rehearses rehearsal done failed) (moves : Moves rehearsal after) :
    Rehearses after done failed := by
  have stands := moves_stands moves rehearses.stands
  obtain ⟨server, outgoing, said, rfl, -, -⟩ := moves
  exact ⟨stands, rehearses.fits, rehearses.free, rehearses.username, rehearses.password, rehearses.nullFree,
    rehearses.posts, rehearses.reports, rehearses.gone, rehearses.single⟩

theorem step_rehearses {event : Event} (rehearses : Rehearses rehearsal done failed)
    (taken : rehearsal.step event = some after) : ∃ done failed, Rehearses after done failed := by
  cases event with
  | asyncPost message =>
    simp only [step] at taken
    split at taken
    next act pending accepted =>
      cases taken
      exact ⟨done, failed, asyncPost_rehearses rehearses pending accepted⟩
    · cases taken
  | asyncStat mid =>
    simp only [step] at taken
    split at taken
    next act pending accepted =>
      cases taken
      exact ⟨done, failed, asyncStat_rehearses rehearses pending accepted⟩
    · cases taken
  | asyncGracefulDisconnect =>
    simp only [step] at taken
    split at taken
    next act pending accepted =>
      cases taken
      exact ⟨done, failed, asyncGracefulDisconnect_rehearses rehearses pending accepted⟩
    · cases taken
  | complete outcome =>
    simp only [step] at taken
    split at taken
    next stage pending => exact ⟨done, failed, complete_rehearses rehearses pending taken⟩
    · cases taken
  | report outcome =>
    simp only [step] at taken
    split at taken
    · cases taken
    · cases taken
    next _ handler callback pending =>
      cases taken
      exact report_rehearses rehearses pending callback
  | handshake throws => exact ⟨done, failed, moves_rehearses rehearses (handshake_moves taken)⟩
  | serve throws => exact ⟨done, failed, moves_rehearses rehearses (serve_moves taken)⟩
  | hangUp => exact ⟨done, failed, moves_rehearses rehearses (hangUp_moves taken)⟩

theorem make_rehearses (credited : Credited) : Rehearses (Rehearsal.make credited) [] [] := by
  obtain ⟨⟨connection, state, readbuf, article⟩, username, password⟩ := credited
  have connects : Rehearsal.make ⟨⟨connection, state, readbuf, article⟩, username, password⟩ =
      ⟨connection, some (.stage .doConnect), [], [], ⟨.accept, []⟩, [], []⟩ := by
    simp only [Rehearsal.make, asyncConnect, state, ite_true]
    rfl
  rw [connects]
  refine ⟨⟨.ready, ?_⟩, ?_, (fun same => by cases same), username, password, (fun _ member => by cases member), ?_, rfl,
    (fun lost => absurd rfl lost), Nat.zero_le _⟩
  · simpa [unread] using readbuf
  · rintro handler ⟨⟩
    exact ⟨state, by simp [article, posting]⟩
  · simp [held, article, articles]

/-- What the articles come to, those the client knows to be stored and the rest. -/
structure Ledger (rehearsal : Rehearsal) (done rest : List Framed) : Prop where
  posts : rehearsal.posts = done ++ rest
  one : rest.length ≤ 1
  files : ∃ stored, stored <+: rest ∧ rehearsal.server.files = shelf (done ++ stored)
  unfinished : ∀ outfile, rehearsal.server.place = .article outfile ∨ rehearsal.server.place = .lost (some outfile) →
    outfile <+: (shelf rest).flatten
  reports : ∃ failed, failed <+: rest ∧ rehearsal.reports = reported done failed

structure Rehearsed (rehearsal : Rehearsal) : Prop where
  obeyed : rehearsal.server.place ≠ .violated
  running : rehearsal.server.place ≠ .terminated
  ledger : ∃ done rest, Ledger rehearsal done rest

/-- Whatever is pending, the thread has at most one file more than the client knows of. -/
theorem Rehearses.leaves (rehearses : Rehearses rehearsal done failed) :
    Leaves rehearsal (shelf done) (shelf (failed ++ held rehearsal)) := by
  have stands := rehearses.stands
  cases pending : rehearsal.pending with
  | none =>
    rw [pending] at stands
    rw [held_none pending (rehearses.free pending), List.append_nil]
    exact stands.1
  | some handler =>
    obtain rfl := rehearses.pending pending
    rw [pending] at stands
    have waits {talk : Talk} (waits : Waits rehearsal (shelf done) talk) (nothing : talk.stored = []) :
        Leaves rehearsal (shelf done) (shelf ([] ++ held rehearsal)) :=
      waits.leaves (nothing ▸ List.nil_prefix ..)
    have quiet (leaves : Leaves rehearsal (shelf done) []) :
        Leaves rehearsal (shelf done) (shelf ([] ++ held rehearsal)) := by
      cases leaves with
      | rests idle stays => exact .rests idle stays
      | serves told stored => exact .serves told (stored.trans (List.nil_prefix ..))
    have sends {message : Framed} (article : rehearsal.connection.article = some message)
        (told : Waits rehearsal (shelf done) (.article message)) :
        Leaves rehearsal (shelf done) (shelf ([] ++ held rehearsal)) := by
      refine told.leaves ?_
      rw [held, article]
      exact List.prefix_append ..
    have reports {message : Framed} {result : PostResult} (same : handler = .postHandler message result)
        (leaves : Leaves rehearsal (shelf done) [message.article.wire]) :
        Leaves rehearsal (shelf done) (shelf ([] ++ held rehearsal)) := by
      subst same
      have empty : rehearsal.connection.article = none := (rehearses.fits _ pending).article
      rw [held, empty, pending]
      exact leaves
    cases handler with
    | stage stage =>
      cases stage with
      | doConnect => exact Idles.leaves stands (.inl rfl)
      | resolved => exact Idles.leaves stands (.inl rfl)
      | connected => exact Idles.leaves stands (.inl rfl)
      | handshaken => exact waits stands rfl
      | greeted => exact waits stands rfl
      | usernameWritten => exact stands.elim fun name told => waits told rfl
      | usernameAnswered => exact stands.elim fun name told => waits told rfl
      | passwordWritten => exact stands.elim fun word told => waits told rfl
      | passwordAnswered => exact stands.elim fun word told => waits told rfl
      | doPost => exact Idles.leaves stands (.inr rfl)
      | postWritten => exact waits stands rfl
      | postAnswered => exact waits stands rfl
      | articleWritten => exact stands.elim fun message told => sends told.1 told.2
      | articleAnswered => exact stands.elim fun message told => sends told.1 told.2
      | doStat => exact Idles.leaves stands.1 (.inr rfl)
      | statWritten => exact stands.elim fun msgid told => waits told rfl
      | statAnswered => exact stands.elim fun msgid told => waits told rfl
      | quitWritten => exact quiet stands
    | timer => exact stands.elim
    | connectHandler result =>
      cases result with
      | connectSuccess => exact Idles.leaves stands (.inr rfl)
      | _ => exact quiet stands.1
    | postHandler message result =>
      cases result with
      | postSuccess => exact reports rfl (Idles.stored stands)
      | postFailureConnectionError => exact reports rfl stands
      | _ => exact stands.elim
    | statHandler msgid result =>
      cases result with
      | connectionError => exact quiet stands
      | _ => exact stands.elim

theorem Rehearses.one (rehearses : Rehearses rehearsal done failed) : (failed ++ held rehearsal).length ≤ 1 := by
  cases pending : rehearsal.pending with
  | none =>
    rw [held_none pending (rehearses.free pending), List.append_nil]
    exact rehearses.single
  | some handler =>
    obtain rfl := rehearses.pending pending
    have fits := rehearses.fits handler pending
    rw [List.nil_append, held, pending]
    cases handler with
    | postHandler message result =>
      have empty : rehearsal.connection.article = none := fits.article
      simp [empty, articles]
    | _ => cases rehearsal.connection.article <;> simp [articles]

theorem Rehearses.rehearsed (rehearses : Rehearses rehearsal done failed) : Rehearsed rehearsal := by
  obtain ⟨obeyed, running, ⟨kept, within, files⟩, unfinished⟩ := rehearses.leaves.sound
  obtain ⟨stored, stays, rfl⟩ := List.prefix_map_iff.mp within
  refine ⟨obeyed, running, done, failed ++ held rehearsal, ?_, rehearses.one, ⟨stored, stays, ?_⟩, unfinished, failed,
    List.prefix_append .., rehearses.reports⟩
  · rw [← List.append_assoc]
    exact rehearses.posts
  · rw [files, shelf_append]
    rfl

/-- In every run of the program against its dummy server, whatever breaks and when, the
server never sees a violation of its protocol and never stops its process. The files it
has made are the articles that were accepted for posting, in this order and byte for
byte, up to one that was under way; the articles that were reported posted are all
among them. What `main` sends are such articles. -/
theorem rehearsal_stores (crc32 : Bytes → UInt32) (credited : Credited) (events : List Event) :
    Machine.Holds step Rehearsed (Rehearsal.make credited) events ∧
      ∀ article, NullBytes.Composed crc32 article → ∃ message : NullFree, message.framed.article = article := by
  refine ⟨?_, fun article composed => composed.nullFree⟩
  apply Machine.holds_of_reachable
  intro rehearsal reached
  have rehearses : ∃ done failed, Rehearses rehearsal done failed := by
    apply reached.invariant (fun rehearsal => ∃ done failed, Rehearses rehearsal done failed)
    · exact ⟨[], [], make_rehearses credited⟩
    · rintro before event after ⟨done, failed, earlier⟩ taken
      exact step_rehearses earlier taken
  obtain ⟨done, failed, rehearses⟩ := rehearses
  exact rehearses.rehearsed

end Runs

private def rehearsed : Credited where
  connection := Connection.make ⟨ascii "rehearse", ascii "secret", ascii "localhost", 563, true⟩ 0
  state := rfl
  readbuf := rfl
  article := rfl
  username := by decide
  password := by decide

private def rehearsedArticle : NullFree where
  framed := {
    article := ⟨⟨ascii "rehearsal", [], ascii "first", [], []⟩, [ascii "line\r\n"]⟩
    framed := ⟨[ascii "From: rehearsal", ascii "Newsgroups: ", ascii "Subject: first", [], ascii "line", []],
      by decide, by decide⟩ }
  nullFree := by decide

private def hears (line : Bytes) : Event := .complete ⟨false, line, false⟩

/-- A whole session: the article is stored and reported before the client quits. -/
def wholeSession : List Event :=
  [hears [], hears [], hears [], .handshake false, hears [], hears serverWelcome, hears [], .serve false,
    hears serverAuth, .serve false, hears [], hears serverAuthSuccess, .report ⟨false, [], false⟩,
    .asyncPost rehearsedArticle, hears [], .serve false, hears [], hears serverSendArticle] ++
    List.replicate 7 (.serve false) ++
    [hears [], hears serverArticlePosted, .report ⟨false, [], false⟩, .asyncGracefulDisconnect, .serve false, hears []]

theorem wholeSession_stores :
    Machine.Holds step Rehearsed (Rehearsal.make rehearsed) wholeSession ∧
      (Machine.run step (Rehearsal.make rehearsed) wholeSession).map
        (fun rehearsal => (rehearsal.server, rehearsal.reports.map Prod.snd)) =
      some (⟨.quit, [rehearsedArticle.framed.article.wire]⟩, [.postSuccess]) :=
  ⟨(rehearsal_stores (fun _ => 0) rehearsed wholeSession).1, by decide +kernel⟩

end Post2Usenet.Proofs.Rehearsals
