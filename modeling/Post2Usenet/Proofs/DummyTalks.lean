import Post2Usenet.DummyServer
import Post2Usenet.Proofs.SessionSync

/-! What passes between a client and the dummy server, one question and its answer at
a time, and how far the server's thread has come with it. -/

namespace Post2Usenet.Proofs.DummyTalks
open Connection DummyServer Nntp Rehearsal SessionSync

/-- What the client has been sent and not looked at yet. -/
def unread (rehearsal : Rehearsal) : Bytes := rehearsal.connection.readbuf ++ rehearsal.incoming

/-- The files that articles make. -/
def shelf (articles : List Framed) : List Bytes := articles.map (fun message => message.article.wire)

/-- One thing the client says, before it waits for the server. -/
inductive Talk where
  | greeting
  | username (name : Bytes)
  | password (word : Bytes)
  | post
  | article (message : Framed)
  | stat (msgid : Bytes)
  | quit

namespace Talk

def text : Talk → Bytes
  | .greeting => []
  | .username name => Protocol.authinfouser ++ name ++ crlf
  | .password word => Protocol.authinfopass ++ word ++ crlf
  | .post => Protocol.post
  | .article message => message.article.wire
  | .stat msgid => Protocol.stat ++ msgid ++ crlf
  | .quit => Protocol.quit

/-- Where the thread is when it is addressed. -/
def start : Talk → Place
  | .greeting => .handshake
  | .username _ => .user
  | .password _ => .pass
  | .post | .stat _ | .quit => .command
  | .article _ => .article []

/-- Where it is when it has answered. -/
def final : Talk → Place
  | .greeting => .user
  | .username _ => .pass
  | .password _ | .article _ | .stat _ => .command
  | .post => .article []
  | .quit => .quit

def reply : Talk → Bytes
  | .greeting => serverWelcome
  | .username _ => serverAuth
  | .password _ => serverAuthSuccess
  | .post => serverSendArticle
  | .article _ => serverArticlePosted
  | .stat _ | .quit => []

def stored : Talk → List Bytes
  | .article message => [message.article.wire]
  | _ => []

/-- A reply is one line, or there is none. -/
theorem reply_single (talk : Talk) : talk.reply = [] ∨ ∃ line, cr ∉ line ∧ talk.reply = line ++ crlf := by
  cases talk with
  | greeting =>
    right
    exact ⟨ascii "200 Some Generic Welcome Message (Posting Allowed)", by decide, by decide⟩
  | username name =>
    right
    exact ⟨ascii "381 PASS required", by decide, (by decide : serverAuth = _)⟩
  | password word =>
    right
    exact ⟨ascii "281 Posting allowed", by decide, (by decide : serverAuthSuccess = _)⟩
  | post =>
    right
    exact ⟨ascii "381 Send article to be posted", by decide, by decide⟩
  | article message =>
    right
    exact ⟨ascii "200 Article posted", by decide, (by decide : serverArticlePosted = _)⟩
  | stat msgid => exact .inl rfl
  | quit => exact .inl rfl

end Talk

/-- A thread that is told something, with the files it had before, the text it has not
read and the bytes it has sent. -/
inductive Serves (files : List Bytes) (talk : Talk) : DummyServer → Bytes → Bytes → Prop
  | greets (greeting : talk = .greeting) : Serves files talk ⟨.handshake, files⟩ [] []
  | asked {line : Bytes} (single : talk.text = line ++ crlf) (clean : cr ∉ line)
      (answers : usenetSession ⟨talk.start, files⟩ (line ++ crlf) = (⟨talk.final, files⟩, talk.reply))
      (nothing : talk.stored = []) : Serves files talk ⟨talk.start, files⟩ (line ++ crlf) []
  | receives {message : Framed} {received : Bytes} {lines : List Bytes} (sends : talk = .article message)
      (clean : ∀ line ∈ lines, cr ∉ line ∧ line ≠ terminator) (nullFree : 0 ∉ message.article.wire)
      (whole : received ++ Lines.join cr lf (lines ++ [terminator]) = message.article.wire) :
      Serves files talk ⟨.article received, files⟩ (Lines.join cr lf (lines ++ [terminator])) []
  | answered : Serves files talk ⟨talk.final, files ++ talk.stored⟩ [] talk.reply
  | broken {outfile : Option Bytes} {outgoing : Bytes} (written : outfile.getD [] <+: talk.stored.flatten) :
      Serves files talk ⟨.lost outfile, files⟩ outgoing []
  | dropped {outfile : Option Bytes} {outgoing sent : Bytes} (written : outfile.getD [] = [])
      (sends : sent = [] ∨ sent = talk.reply) : Serves files talk ⟨.lost outfile, files ++ talk.stored⟩ outgoing sent

/-- A thread that nobody has told anything since. -/
inductive Rests (files : List Bytes) (place : Place) : DummyServer → Bytes → Prop
  | ready : Rests files place ⟨place, files⟩ []
  | lost {outfile : Option Bytes} {outgoing : Bytes} (started : place ≠ .accept) (written : outfile.getD [] = []) :
      Rests files place ⟨.lost outfile, files⟩ outgoing

section Server

variable {files : List Bytes} {talk : Talk} {server : DummyServer} {outgoing sent line rest : Bytes}

theorem article_continues {message : Framed} {received : Bytes} (nullFree : 0 ∉ message.article.wire)
    (whole : received ++ (line ++ crlf ++ rest) = message.article.wire) (other : line ≠ terminator) :
    usenetSession ⟨.article received, files⟩ (line ++ crlf) = (⟨.article (received ++ (line ++ crlf)), files⟩, []) := by
  have plain : 0 ∉ line ++ crlf := by
    intro member
    apply nullFree
    rw [← whole]
    exact List.mem_append_right _ (List.mem_append_left _ member)
  have going : line ++ crlf ≠ ascii ".\r\n" := by
    intro same
    exact other (List.append_cancel_right (same.trans (by decide : ascii ".\r\n" = terminator ++ crlf)))
  simp only [usenetSession, if_neg plain, if_neg going]

/-- The line with the single dot closes the file. -/
theorem article_ends (received : Bytes) :
    usenetSession ⟨.article received, files⟩ (terminator ++ crlf) =
      (⟨.command, files ++ [received ++ (terminator ++ crlf)]⟩, serverArticlePosted) := by
  have plain : 0 ∉ terminator ++ crlf := by decide
  have last : terminator ++ crlf = ascii ".\r\n" := by decide
  simp only [usenetSession, if_neg plain, if_pos last]

/-- A line makes the thread go on with what it was told, also where its answer is lost. -/
theorem serves_line (serves : Serves files talk server outgoing sent) (reading : server.place.reads = true)
    (found : Lines.next cr lf outgoing = some (line, rest)) :
    Serves files talk (server.usenetSession (line ++ crlf)).1 rest (sent ++ (server.usenetSession (line ++ crlf)).2) ∧
      ((server.usenetSession (line ++ crlf)).2 ≠ [] →
        Serves files talk { (server.usenetSession (line ++ crlf)).1 with place := .lost none } rest sent) := by
  cases serves with
  | greets => cases reading
  | @asked text single clean answers nothing =>
    rw [next_closed clean] at found
    cases found
    rw [answers]
    have kept : files = files ++ talk.stored := by rw [nothing, List.append_nil]
    constructor
    · have done := @Serves.answered files talk
      rw [← kept] at done
      exact done
    · intro _
      have done := @Serves.dropped files talk none [] [] rfl (.inl rfl)
      rw [← kept] at done
      exact done
  | @receives message received lines sends clean nullFree whole =>
    subst sends
    cases lines with
    | nil =>
      have last : Lines.next cr lf (Lines.join cr lf [terminator]) = some (terminator, []) := rfl
      rw [List.nil_append, last] at found
      cases found
      have closed : received ++ (terminator ++ crlf) = message.article.wire := whole
      rw [article_ends, closed]
      exact ⟨@Serves.answered files (.article message), fun _ => .dropped rfl (.inl rfl)⟩
    | cons first lines =>
      have another := clean first (List.mem_cons_self ..)
      rw [List.cons_append, Lines.join_cons, Lines.next_clean another.1] at found
      obtain ⟨rfl, rfl⟩ := Prod.mk.inj (Option.some.inj found)
      rw [List.cons_append, Lines.join_cons] at whole
      have cut : received ++ (first ++ crlf ++ Lines.join cr lf (lines ++ [terminator])) = message.article.wire := by
        simpa [crlf] using whole
      rw [article_continues nullFree cut another.2]
      refine ⟨.receives rfl (fun line member => clean line (List.mem_cons_of_mem _ member)) nullFree ?_,
        fun replied => absurd rfl replied⟩
      simpa using cut
  | answered => cases found
  | broken written => cases reading
  | dropped written sends => cases reading

/-- The thread ends where it is. -/
theorem serves_hangUp (serves : Serves files talk server outgoing sent)
    (waiting : server.place.reads = true ∨ server.place = .handshake) :
    Serves files talk { server with place := .lost server.place.outfile? } outgoing sent := by
  cases serves with
  | greets => exact .broken (List.nil_prefix ..)
  | asked single clean answers nothing =>
    refine .broken ?_
    cases talk <;> exact List.nil_prefix ..
  | @receives message received lines sends clean nullFree whole =>
    subst sends
    refine .broken ?_
    simp only [Talk.stored, List.flatten_cons, List.flatten_nil, List.append_nil, ← whole]
    exact List.prefix_append ..
  | answered =>
    refine .dropped ?_ (.inr rfl)
    cases talk <;> rfl
  | broken written => rcases waiting with reading | shaking <;> contradiction
  | dropped written sends => rcases waiting with reading | shaking <;> contradiction

/-- What the client has heard to the end leaves nothing behind. -/
theorem Serves.heard (serves : Serves files talk server outgoing sent) (replied : sent = talk.reply)
    (said : talk.reply ≠ []) : Rests (files ++ talk.stored) talk.final server outgoing := by
  cases serves with
  | greets => exact absurd replied.symm said
  | asked => exact absurd replied.symm said
  | receives => exact absurd replied.symm said
  | answered => exact .ready
  | broken => exact absurd replied.symm said
  | dropped written _ =>
    refine .lost ?_ written
    cases talk <;> exact nofun

theorem Serves.sends (serves : Serves files talk server outgoing sent) : sent = [] ∨ sent = talk.reply := by
  cases serves with
  | greets => exact .inl rfl
  | asked => exact .inl rfl
  | receives => exact .inl rfl
  | answered => exact .inr rfl
  | broken => exact .inl rfl
  | dropped _ sends => exact sends

theorem Rests.kept {place : Place} (rests : Rests (files ++ talk.stored) place server outgoing)
    (nothing : talk.stored = []) : Rests files place server outgoing := by
  rw [nothing, List.append_nil] at rests
  exact rests

theorem Rests.asked (rests : Rests files talk.start server outgoing) (single : talk.text = line ++ crlf)
    (clean : cr ∉ line) (answers : usenetSession ⟨talk.start, files⟩ (line ++ crlf) = (⟨talk.final, files⟩, talk.reply))
    (nothing : talk.stored = []) : Serves files talk server (outgoing ++ talk.text) [] := by
  cases rests with
  | ready =>
    rw [List.nil_append, single]
    exact .asked single clean answers nothing
  | lost _ written =>
    refine .broken ?_
    rw [written]
    exact List.nil_prefix ..

theorem Rests.receives {message : Framed} (rests : Rests files (.article []) server outgoing)
    (nullFree : 0 ∉ message.article.wire) :
    Serves files (.article message) server (outgoing ++ message.article.wire) [] := by
  cases rests with
  | ready =>
    obtain ⟨lines, wire, clean⟩ := message.framed
    rw [List.nil_append, wire]
    exact .receives rfl clean nullFree wire.symm
  | lost _ written =>
    refine .broken ?_
    rw [written]
    exact List.nil_prefix ..

theorem Rests.hangUp {place : Place} (rests : Rests files place server outgoing) (unwritten : place.outfile? = none)
    (waiting : server.place.reads = true ∨ server.place = .handshake) :
    Rests files place { server with place := .lost server.place.outfile? } outgoing := by
  cases rests with
  | ready =>
    refine .lost ?_ (by rw [unwritten]; rfl)
    rintro rfl
    rcases waiting with reading | shaking <;> contradiction
  | lost started _ => exact .lost started rfl

/-- The TLS handshake, and the greeting after it. -/
theorem serves_handshake (serves : Serves files talk server outgoing sent) (shaking : server.place = .handshake) :
    Serves files talk { server with place := .user } outgoing (sent ++ serverWelcome) ∧
      Serves files talk { server with place := .lost none } outgoing sent := by
  cases serves with
  | greets greeting =>
    subst greeting
    have done := @Serves.answered files .greeting
    simp only [Talk.stored, List.append_nil] at done
    exact ⟨done, .broken (List.nil_prefix ..)⟩
  | asked single clean answers nothing =>
    cases talk with
    | greeting => simp [Talk.text, crlf] at single
    | _ => cases shaking
  | receives => cases shaking
  | answered => cases talk <;> cases shaking
  | broken => cases shaking
  | dropped => cases shaking

/-- The places at which a client may leave the thread alone. -/
theorem rests_stay {place : Place} (rests : Rests files place server outgoing)
    (idle : place = .accept ∨ place = .command) :
    server.place ≠ .handshake ∧ (server.place.reads = true → outgoing = []) ∧ place.outfile? = none := by
  cases rests with
  | ready => rcases idle with rfl | rfl <;> exact ⟨nofun, fun _ => rfl, rfl⟩
  | lost => rcases idle with rfl | rfl <;> exact ⟨nofun, nofun, rfl⟩

end Server

section Steps

variable {before after rehearsal : Rehearsal} {files more : List Bytes} {talk : Talk} {place : Place}

/-- The client waits for the thread, which is at work. -/
def Waits (rehearsal : Rehearsal) (files : List Bytes) (talk : Talk) : Prop :=
  Serves files talk rehearsal.server rehearsal.outgoing (unread rehearsal)

/-- Nothing is in flight. -/
structure Idles (rehearsal : Rehearsal) (files : List Bytes) (place : Place) : Prop where
  rests : Rests files place rehearsal.server rehearsal.outgoing
  empty : unread rehearsal = []

/-- The client does not listen any more. What the thread still does may leave one more file. -/
inductive Leaves (rehearsal : Rehearsal) (files more : List Bytes) : Prop
  | rests {place : Place} (rests : Rests files place rehearsal.server rehearsal.outgoing)
      (idle : place = .accept ∨ place = .command)
  | serves {talk : Talk} {sent : Bytes} (serves : Serves files talk rehearsal.server rehearsal.outgoing sent)
      (stored : talk.stored <+: more)

/-- A step of the thread. It changes nothing of the client, and what a client that rests
or waits relies on. -/
def Moves (before after : Rehearsal) : Prop :=
  ∃ server outgoing said,
    after = { before with server, outgoing, incoming := before.incoming ++ said } ∧
    (∀ files talk sent, Serves files talk before.server before.outgoing sent →
      Serves files talk server outgoing (sent ++ said)) ∧
    (∀ files place, place = .accept ∨ place = .command → Rests files place before.server before.outgoing →
      Rests files place server outgoing ∧ said = [])

theorem serve_moves {throws : Bool} (taken : before.serve throws = some after) : Moves before after := by
  simp only [serve] at taken
  split at taken
  next reading =>
    obtain ⟨⟨line, rest⟩, found, same⟩ := Option.map_eq_some_iff.mp taken
    have idle : ∀ files place, place = .accept ∨ place = .command →
        ¬ Rests files place before.server before.outgoing := by
      intro files place stays rests
      rw [(rests_stay rests stays).2.1 reading] at found
      cases found
    dsimp only at same
    split at same
    next lost =>
      refine ⟨{ (before.server.usenetSession (line ++ crlf)).1 with place := .lost none }, rest, [],
        same.symm.trans (by rw [List.append_nil]), fun files talk sent serves => ?_,
        fun files place stays rests => absurd rests (idle files place stays)⟩
      rw [List.append_nil]
      exact (serves_line serves reading found).2 lost.2
    · exact ⟨_, rest, _, same.symm, fun files talk sent serves => (serves_line serves reading found).1,
        fun files place stays rests => absurd rests (idle files place stays)⟩
  · cases taken

theorem handshake_moves {throws : Bool} (taken : before.handshake throws = some after) : Moves before after := by
  simp only [handshake] at taken
  split at taken
  next shaking =>
    have idle : ∀ files place, place = .accept ∨ place = .command →
        ¬ Rests files place before.server before.outgoing :=
      fun files place stays rests => (rests_stay rests stays).1 shaking.1
    rw [Option.some.injEq] at taken
    split at taken
    · refine ⟨{ before.server with place := .lost none }, before.outgoing, [],
        taken.symm.trans (by rw [List.append_nil]), fun files talk sent serves => ?_,
        fun files place stays rests => absurd rests (idle files place stays)⟩
      rw [List.append_nil]
      exact (serves_handshake serves shaking.1).2
    · exact ⟨_, before.outgoing, _, taken.symm, fun files talk sent serves => (serves_handshake serves shaking.1).1,
        fun files place stays rests => absurd rests (idle files place stays)⟩
  · cases taken

theorem hangUp_moves (taken : before.hangUp = some after) : Moves before after := by
  simp only [hangUp] at taken
  split at taken
  next waiting =>
    rw [Option.some.injEq] at taken
    refine ⟨{ before.server with place := .lost before.server.place.outfile? }, before.outgoing, [],
      taken.symm.trans (by rw [List.append_nil]), fun files talk sent serves => ?_,
      fun files place stays rests => ⟨rests.hangUp (rests_stay rests stays).2.2 waiting, rfl⟩⟩
    rw [List.append_nil]
    exact serves_hangUp serves waiting
  · cases taken

theorem Moves.waits (moves : Moves before after) (waits : Waits before files talk) : Waits after files talk := by
  obtain ⟨server, outgoing, said, rfl, serves, -⟩ := moves
  have later := serves files talk _ waits
  rw [unread, List.append_assoc] at later
  exact later

theorem Moves.idles (moves : Moves before after) (stays : place = .accept ∨ place = .command)
    (idles : Idles before files place) : Idles after files place := by
  obtain ⟨server, outgoing, said, rfl, -, rests⟩ := moves
  obtain ⟨later, rfl⟩ := rests files place stays idles.rests
  refine ⟨later, ?_⟩
  have empty := idles.empty
  rw [unread] at empty ⊢
  simpa using empty

theorem Moves.leaves (moves : Moves before after) (leaves : Leaves before files more) : Leaves after files more := by
  obtain ⟨server, outgoing, said, rfl, serves, rests⟩ := moves
  cases leaves with
  | @rests place idle stays => exact .rests (rests files place stays idle).1 stays
  | serves told stored => exact .serves (serves _ _ _ told) stored

theorem Waits.leaves (waits : Waits rehearsal files talk) (stored : talk.stored <+: more) : Leaves rehearsal files more :=
  .serves waits stored

theorem Idles.leaves (idles : Idles rehearsal files place) (stays : place = .accept ∨ place = .command) :
    Leaves rehearsal files more :=
  .rests idles.rests stays

theorem Leaves.frame (leaves : Leaves before files more)
    (server : after.server = before.server) (outgoing : after.outgoing = before.outgoing) : Leaves after files more := by
  cases leaves with
  | rests idle stays =>
    rw [← server, ← outgoing] at idle
    exact .rests idle stays
  | serves told stored =>
    rw [← server, ← outgoing] at told
    exact .serves told stored

end Steps

section Found

/-- What a thread can be found at, and what it has written. -/
structure Sound (files more : List Bytes) (server : DummyServer) : Prop where
  obeyed : server.place ≠ .violated
  running : server.place ≠ .terminated
  files : ∃ stored, stored <+: more ∧ server.files = files ++ stored
  unfinished : ∀ outfile, server.place = .article outfile ∨ server.place = .lost (some outfile) →
    outfile <+: more.flatten

theorem flatten_prefix {first rest : List Bytes} (within : first <+: rest) : first.flatten <+: rest.flatten := by
  obtain ⟨later, rfl⟩ := within
  rw [List.flatten_append]
  exact List.prefix_append ..

theorem Rests.sound {files : List Bytes} {place : Place} {server : DummyServer} {outgoing : Bytes}
    (rests : Rests files place server outgoing) (stays : place = .accept ∨ place = .command) (more : List Bytes) :
    Sound files more server := by
  have kept : ∃ stored, stored <+: more ∧ files = files ++ stored := ⟨[], List.nil_prefix .., (List.append_nil _).symm⟩
  cases rests with
  | ready =>
    refine ⟨?_, ?_, kept, ?_⟩
    · rintro rfl
      rcases stays with same | same <;> cases same
    · rintro rfl
      rcases stays with same | same <;> cases same
    · rintro outfile (rfl | rfl)
      · rcases stays with same | same <;> cases same
      · rcases stays with same | same <;> cases same
  | @lost left outgoing started written =>
    refine ⟨nofun, nofun, kept, ?_⟩
    rintro outfile (same | same)
    · cases same
    · cases same
      rw [show outfile = [] from written]
      exact List.nil_prefix ..

theorem Serves.sound {files more : List Bytes} {talk : Talk} {server : DummyServer} {outgoing sent : Bytes}
    (serves : Serves files talk server outgoing sent) (stored : talk.stored <+: more) : Sound files more server := by
  have kept : ∃ stored, stored <+: more ∧ files = files ++ stored := ⟨[], List.nil_prefix .., (List.append_nil _).symm⟩
  have within := flatten_prefix stored
  cases serves with
  | greets =>
    refine ⟨nofun, nofun, kept, ?_⟩
    rintro outfile (same | same) <;> cases same
  | asked single clean answers nothing =>
    refine ⟨?_, ?_, kept, ?_⟩
    · cases talk <;> exact nofun
    · cases talk <;> exact nofun
    · rintro outfile (same | same)
      · cases talk with
        | article message => cases nothing
        | _ => cases same
      · cases talk <;> cases same
  | @receives message received lines sends clean nullFree whole =>
    subst sends
    refine ⟨nofun, nofun, kept, ?_⟩
    rintro outfile (same | same)
    · cases same
      refine List.IsPrefix.trans ?_ within
      simp only [Talk.stored, List.flatten_cons, List.flatten_nil, List.append_nil, ← whole]
      exact List.prefix_append ..
    · cases same
  | answered =>
    refine ⟨?_, ?_, ⟨talk.stored, stored, rfl⟩, ?_⟩
    · cases talk <;> exact nofun
    · cases talk <;> exact nofun
    · rintro outfile (same | same)
      · cases talk with
        | post =>
          cases same
          exact List.nil_prefix ..
        | _ => cases same
      · cases talk <;> cases same
  | broken written =>
    refine ⟨nofun, nofun, kept, ?_⟩
    rintro outfile (same | same)
    · cases same
    · cases same
      exact List.IsPrefix.trans written within
  | dropped written _ =>
    refine ⟨nofun, nofun, ⟨talk.stored, stored, rfl⟩, ?_⟩
    rintro outfile (same | same)
    · cases same
    · cases same
      rw [show outfile = [] from written]
      exact List.nil_prefix ..

theorem Leaves.sound {files more : List Bytes} (leaves : Leaves rehearsal files more) :
    Sound files more rehearsal.server := by
  cases leaves with
  | rests idle stays => exact idle.sound stays more
  | serves told stored => exact told.sound stored

/-- The article the client is about to report is stored. -/
theorem Idles.stored {files : List Bytes} {message : Framed}
    (idles : Idles rehearsal (files ++ [message.article.wire]) .command) :
    Leaves rehearsal files [message.article.wire] := by
  obtain ⟨rests, -⟩ := idles
  have told : Serves files (.article message) rehearsal.server rehearsal.outgoing [] ∨
      Serves files (.article message) rehearsal.server rehearsal.outgoing serverArticlePosted := by
    generalize rehearsal.server = server at rests
    generalize rehearsal.outgoing = outgoing at rests
    cases rests with
    | ready => exact .inr (@Serves.answered files (.article message))
    | lost _ written => exact .inl (@Serves.dropped files (.article message) _ _ [] written (.inl rfl))
  rcases told with told | told
  · exact .serves told (List.prefix_refl _)
  · exact .serves told (List.prefix_refl _)

end Found

end Post2Usenet.Proofs.DummyTalks
