import Post2Usenet.Proofs.ReactorSteps

/-! The exchanges a connection has with its server, as scripts: what has occurred when a
handler is pending. A script tells the verdict, which is the last handler's. -/

namespace Post2Usenet.Proofs.Exchanges
open Connection ConnectionSteps Reactor ReactorSteps

variable {α : Type} {heap : α → Article}

def done (stage : Stage) : Occurrence α := .completed stage false none

def broken (stage : Stage) : Occurrence α := .completed stage true none

def answered (stage : Stage) (line : Bytes) : Occurrence α := .completed stage false (some line)

/-- Some operation has ended with an error. -/
def Broken (new : List (Occurrence α)) : Prop := ∃ stage line, .completed stage true line ∈ new

section Posting

def commandedPost : List (Occurrence α) := [.wrote Protocol.post .postWritten]

def askedPost : List (Occurrence α) := done .postWritten :: commandedPost

def permittedPost (article : Article) (line : Bytes) : List (Occurrence α) :=
  .wrote article.wire .articleWritten :: answered .postAnswered line :: askedPost

inductive Posting (heap : α → Article) (message : α) : Handler α → List (Occurrence α) → Prop
  | accepted : Posting heap message (.stage .doPost) []
  | commanded : Posting heap message (.stage .postWritten) commandedPost
  | asked : Posting heap message (.stage .postAnswered) askedPost
  | permitted {line : Bytes} (allowed : line.head? ≠ some 52) :
      Posting heap message (.stage .articleWritten) (permittedPost (heap message) line)
  | sent {line : Bytes} (allowed : line.head? ≠ some 52) :
      Posting heap message (.stage .articleAnswered) (done .articleWritten :: permittedPost (heap message) line)
  | fails {stage : Stage} {new : List (Occurrence α)} (told : posted stage = false)
      (before : Posting heap message (.stage stage) new) :
      Posting heap message (.postHandler message .postFailureConnectionError) (broken stage :: new)
  | refused {line : Bytes} (refusal : line.head? = some 52) :
      Posting heap message (.postHandler message .postingNotPermitted) (answered .postAnswered line :: askedPost)
  | replied {line reply : Bytes} (allowed : line.head? ≠ some 52) :
      Posting heap message (.postHandler message (if reply.head? = some 50 then .postSuccess else .postFailure))
        (answered .articleAnswered reply :: done .articleWritten :: permittedPost (heap message) line)

/-- The connection while it posts: it holds the article until the verdict. -/
structure Posts (heap : α → Article) (message : α) (connection : Connection α) (handler : Handler α)
    (new : List (Occurrence α)) : Prop where
  script : Posting heap message handler new
  held : ∀ stage, handler = .stage stage → connection.article = some message
  idle : (∀ stage, handler ≠ .stage stage) → Idle connection
  msgid : connection.msgid = []
  sockOpen : connection.sockOpen = true

theorem leads_postHandler {script : Script α} {connection : Connection α} {message : α} {result : PostResult}
    {new : List (Occurrence α)} (held : connection.article = some message)
    (goes : script { connection with state := .connectedAndAuthenticated, article := none } (.postHandler message result) new) :
    Leads script (connection.postHandlerCallback result) new := by
  rw [postHandlerCallback, held]
  exact leads_post goes

theorem posts_follows (message : α) : Follows heap (Posts heap message) := by
  rintro connection stage outcome new ⟨script, held, -, msgid, sockOpen⟩
  have holds := held stage rfl
  clear held
  have going {state : State} {readbuf postheader : Bytes} {stage : Stage} {occurred : List (Occurrence α)}
      (continues : Posting heap message (.stage stage) occurred) :
      Posts heap message { connection with state, readbuf, postheader } (.stage stage) occurred :=
    ⟨continues, fun _ _ => holds, fun callback => absurd rfl (callback stage), msgid, sockOpen⟩
  have concluding {readbuf : Bytes} {result : PostResult} {occurred : List (Occurrence α)}
      (concludes : Posting heap message (.postHandler message result) occurred) :
      Leads (Posts heap message) ({ connection with readbuf }.postHandlerCallback result) occurred :=
    leads_postHandler holds ⟨concludes, nofun, fun _ => ⟨rfl, rfl⟩, msgid, sockOpen⟩
  cases script with
  | accepted => exact leads_write (going .commanded)
  | commanded =>
    apply leads_onWritten rfl rfl
    · exact leads_readLine (going .asked)
    · exact concluding (.fails rfl .commanded)
  | asked =>
    apply leads_onLine rfl rfl
    · intro line readbuf
      split
      next refusal => exact concluding (.refused refusal)
      next allowed =>
        simp only [holds]
        exact leads_write ⟨.permitted allowed, fun _ _ => rfl, fun callback => absurd rfl (callback _), msgid, sockOpen⟩
    · exact fun readbuf => concluding (.fails rfl .asked)
  | permitted allowed =>
    apply leads_onWritten rfl rfl
    · exact leads_readLine (going (.sent allowed))
    · exact concluding (.fails rfl (.permitted allowed))
  | sent allowed =>
    apply leads_onLine rfl rfl
    · intro line readbuf
      have replied := @concluding readbuf _ _ (@Posting.replied α heap message _ line allowed)
      split
      next success =>
        rw [if_pos success] at replied
        exact replied
      next failure =>
        rw [if_neg failure] at replied
        exact replied
    · exact fun readbuf => concluding (.fails rfl (.sent allowed))

/-- When which result of a post is reported. -/
structure PostVerdict (article : Article) (new : List (Occurrence α)) (result : PostResult) : Prop where
  connectionError : result = .postFailureConnectionError ↔ Broken new
  notPermitted : result = .postingNotPermitted ↔ ∃ line, answered .postAnswered line ∈ new ∧ line.head? = some 52
  unsent : result = .postingNotPermitted → ∀ buffers stage, .wrote buffers stage ∈ new → buffers = Protocol.post
  success : result = .postSuccess ↔ .wrote article.wire .articleWritten ∈ new ∧ done .articleWritten ∈ new ∧
    ∃ line, answered .articleAnswered line ∈ new ∧ line.head? = some 50
  failure : result = .postFailure ↔ ¬ Broken new ∧
    (∀ line, answered .postAnswered line ∈ new → line.head? ≠ some 52) ∧
    ∀ line, answered .articleAnswered line ∈ new → line.head? ≠ some 50

theorem posting_verdict {message : α} {handler : Handler α} {new : List (Occurrence α)}
    (script : Posting heap message handler new) (callback : ∀ stage, handler ≠ .stage stage) :
    ∃ result, handler = .postHandler message result ∧ PostVerdict (heap message) new result := by
  cases script with
  | @fails stage new told before =>
    refine ⟨_, rfl, ?_⟩
    cases before with
    | accepted => cases told
    | permitted allowed =>
      constructor <;> simp [Broken, broken, done, answered, commandedPost, askedPost, permittedPost, allowed]
    | sent allowed =>
      constructor <;> simp [Broken, broken, done, answered, commandedPost, askedPost, permittedPost, allowed]
    | _ => constructor <;> simp [Broken, broken, done, answered, commandedPost, askedPost]
  | refused refusal =>
    exact ⟨_, rfl, by constructor <;> simp [Broken, done, answered, commandedPost, askedPost, refusal]⟩
  | @replied line reply allowed =>
    refine ⟨_, rfl, ?_⟩
    by_cases success : reply.head? = some 50 <;>
      constructor <;> simp [Broken, done, answered, commandedPost, askedPost, permittedPost, success, allowed]
  | _ => exact absurd rfl (callback _)

theorem posting_silent {message : α} {handler : Handler α} {new : List (Occurrence α)}
    (script : Posting heap message handler new) (other : Handler α) : .invoked other ∉ new := by
  induction script with
  | fails told before ih => simp [broken, ih]
  | _ => simp [done, answered, commandedPost, askedPost, permittedPost]

end Posting

section Stating

def commandedStat (mid : Bytes) : List (Occurrence α) := [.wrote (Protocol.stat ++ mid ++ crlf) .statWritten]

def askedStat (mid : Bytes) : List (Occurrence α) := done .statWritten :: commandedStat mid

inductive Stating (mid : Bytes) : Handler α → List (Occurrence α) → Prop
  | accepted : Stating mid (.stage .doStat) []
  | commanded : Stating mid (.stage .statWritten) (commandedStat mid)
  | asked : Stating mid (.stage .statAnswered) (askedStat mid)
  | fails {stage : Stage} {new : List (Occurrence α)} (told : posted stage = false)
      (before : Stating mid (.stage stage) new) : Stating mid (.statHandler mid .connectionError) (broken stage :: new)
  | replied {line : Bytes} :
      Stating mid (.statHandler mid (if line.head? = some 50 then .articleExists else .invalidArticle))
        (answered .statAnswered line :: askedStat mid)

/-- The connection while it asks for an article: it keeps the id until the verdict. -/
structure Stats (mid : Bytes) (connection : Connection α) (handler : Handler α) (new : List (Occurrence α)) : Prop where
  script : Stating mid handler new
  held : ∀ stage, handler = .stage stage → connection.msgid = mid
  idle : (∀ stage, handler ≠ .stage stage) → Idle connection ∧ connection.msgid = []
  article : connection.article = none
  sockOpen : connection.sockOpen = true

theorem stats_follows (mid : Bytes) : Follows heap (Stats mid) := by
  rintro connection stage outcome new ⟨script, held, -, article, sockOpen⟩
  have holds := held stage rfl
  clear held
  have going {state : State} {readbuf : Bytes} {stage : Stage} {occurred : List (Occurrence α)}
      (continues : Stating mid (.stage stage) occurred) :
      Stats mid { connection with state, readbuf } (.stage stage) occurred :=
    ⟨continues, fun _ _ => holds, fun callback => absurd rfl (callback stage), article, sockOpen⟩
  have concluding {readbuf : Bytes} {result : StatResult} {occurred : List (Occurrence α)}
      (concludes : Stating mid (.statHandler mid result) occurred) :
      Leads (Stats mid) ({ connection with readbuf }.statHandlerCallback result) occurred := by
    rw [statHandlerCallback, holds]
    refine leads_post ⟨concludes, fun stage same => ?_, fun _ => ⟨⟨rfl, article⟩, rfl⟩, article, sockOpen⟩
    cases same
  cases script with
  | accepted =>
    subst holds
    exact leads_write (going .commanded)
  | commanded =>
    apply leads_onWritten rfl rfl
    · exact leads_readLine (going .asked)
    · exact concluding (.fails rfl .commanded)
  | asked =>
    apply leads_onLine rfl rfl
    · intro line readbuf
      have replied := @concluding readbuf _ _ (@Stating.replied α mid line)
      split
      next success =>
        rw [if_pos success] at replied
        exact replied
      next failure =>
        rw [if_neg failure] at replied
        exact replied
    · exact fun readbuf => concluding (.fails rfl .asked)

/-- When which result of a stat is reported. -/
structure StatVerdict (mid : Bytes) (new : List (Occurrence α)) (result : StatResult) : Prop where
  asked : ∀ buffers stage, .wrote buffers stage ∈ new → buffers = Protocol.stat ++ mid ++ crlf
  connectionError : result = .connectionError ↔ Broken new
  articleExists : result = .articleExists ↔ ∃ line, answered .statAnswered line ∈ new ∧ line.head? = some 50
  invalidArticle : result = .invalidArticle ↔ ∃ line, answered .statAnswered line ∈ new ∧ line.head? ≠ some 50

theorem stating_verdict {mid : Bytes} {handler : Handler α} {new : List (Occurrence α)}
    (script : Stating mid handler new) (callback : ∀ stage, handler ≠ .stage stage) :
    ∃ result, handler = .statHandler mid result ∧ StatVerdict mid new result := by
  cases script with
  | @fails stage new told before =>
    refine ⟨_, rfl, ?_⟩
    cases before with
    | accepted => cases told
    | _ => constructor <;> simp [Broken, broken, done, answered, commandedStat, askedStat]
  | @replied line =>
    refine ⟨_, rfl, ?_⟩
    by_cases success : line.head? = some 50 <;>
      constructor <;> simp [Broken, done, answered, commandedStat, askedStat, success]
  | _ => exact absurd rfl (callback _)

theorem stating_silent {mid : Bytes} {handler : Handler α} {new : List (Occurrence α)}
    (script : Stating mid handler new) (other : Handler α) : .invoked other ∉ new := by
  induction script with
  | fails told before ih => simp [broken, ih]
  | _ => simp [done, answered, commandedStat, askedStat]

end Stating

end Post2Usenet.Proofs.Exchanges
