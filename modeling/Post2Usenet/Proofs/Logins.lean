import Post2Usenet.Proofs.Exchanges

/-! The way from the resolver to the answer that authenticates, as a script. -/

namespace Post2Usenet.Proofs.Logins
open Connection ConnectionSteps Reactor ReactorSteps Exchanges

variable {α : Type} {heap : α → Article} {conninfo : ConnectionInfo}

def transport (conninfo : ConnectionInfo) : List (Occurrence α) :=
  if conninfo.tls = true then [done .handshaken, done .connected, done .resolved]
  else [done .connected, done .resolved]

def usernameLine (conninfo : ConnectionInfo) : Bytes := Protocol.authinfouser ++ conninfo.username ++ crlf

def passwordLine (conninfo : ConnectionInfo) : Bytes := Protocol.authinfopass ++ conninfo.password ++ crlf

/-- What has occurred until the user name is asked for, and then until the password is. -/
def nameSent (conninfo : ConnectionInfo) (greeting : Bytes) : List (Occurrence α) :=
  .wrote (usernameLine conninfo) .usernameWritten :: answered .greeted greeting :: transport conninfo

def keySent (conninfo : ConnectionInfo) (greeting line : Bytes) : List (Occurrence α) :=
  .wrote (passwordLine conninfo) .passwordWritten :: answered .usernameAnswered line ::
    done .usernameWritten :: nameSent conninfo greeting

def wantsPassword (line : Bytes) : Bool := (ascii "381").isPrefixOf line

inductive Connecting (conninfo : ConnectionInfo) : Handler α → List (Occurrence α) → Prop
  | accepted : Connecting conninfo (.stage .doConnect) []
  | resolving : Connecting conninfo (.stage .resolved) []
  | connecting : Connecting conninfo (.stage .connected) [done .resolved]
  | handshaking (tls : conninfo.tls = true) :
      Connecting conninfo (.stage .handshaken) [done .connected, done .resolved]
  | established : Connecting conninfo (.stage .greeted) (transport conninfo)
  | naming {greeting : Bytes} (welcome : greeting.head? = some 50) :
      Connecting conninfo (.stage .usernameWritten) (nameSent conninfo greeting)
  | named {greeting : Bytes} (welcome : greeting.head? = some 50) :
      Connecting conninfo (.stage .usernameAnswered) (done .usernameWritten :: nameSent conninfo greeting)
  | keying {greeting line : Bytes} (welcome : greeting.head? = some 50) (asks : wantsPassword line = true) :
      Connecting conninfo (.stage .passwordWritten) (keySent conninfo greeting line)
  | keyed {greeting line : Bytes} (welcome : greeting.head? = some 50) (asks : wantsPassword line = true) :
      Connecting conninfo (.stage .passwordAnswered) (done .passwordWritten :: keySent conninfo greeting line)
  | fails {stage : Stage} {new : List (Occurrence α)} (told : posted stage = false)
      (before : Connecting conninfo (.stage stage) new) :
      Connecting conninfo (.connectHandler .fatalConnectError) (broken stage :: new)
  | refused {greeting : Bytes} (unwelcome : greeting.head? ≠ some 50) :
      Connecting conninfo (.connectHandler .fatalConnectError) (answered .greeted greeting :: transport conninfo)
  | nameChecked {greeting line : Bytes} (welcome : greeting.head? = some 50) (final : wantsPassword line = false) :
      Connecting conninfo (.connectHandler (if line.head? = some 50 then .connectSuccess else .invalidCredentials))
        (answered .usernameAnswered line :: done .usernameWritten :: nameSent conninfo greeting)
  | keyChecked {greeting line reply : Bytes} (welcome : greeting.head? = some 50)
      (asks : wantsPassword line = true) :
      Connecting conninfo (.connectHandler (if reply.head? = some 50 then .connectSuccess else .invalidCredentials))
        (answered .passwordAnswered reply :: done .passwordWritten :: keySent conninfo greeting line)

/-- The stages at which the socket is open. -/
def opened : Stage → Bool
  | .doConnect | .resolved => false
  | _ => true

structure Connects (conninfo : ConnectionInfo) (connection : Connection α) (handler : Handler α)
    (new : List (Occurrence α)) : Prop where
  script : Connecting conninfo handler new
  conninfo : connection.conninfo = conninfo
  state : ∀ stage, handler = .stage stage → connection.state = entry stage
  sockOpen : ∀ stage, handler = .stage stage → opened stage = true → connection.sockOpen = true
  reports : ∀ result, handler = .connectHandler result →
    (connection.state = .connectedAndAuthenticated ↔ result = .connectSuccess) ∧
      (result = .connectSuccess → connection.sockOpen = true)
  article : connection.article = none
  msgid : connection.msgid = []

theorem Connects.midway {conninfo : ConnectionInfo} {connection : Connection α} {stage : Stage} {new : List (Occurrence α)}
    (script : Connecting conninfo (.stage stage) new) (same : connection.conninfo = conninfo)
    (state : connection.state = entry stage) (sockOpen : opened stage = true → connection.sockOpen = true)
    (article : connection.article = none) (msgid : connection.msgid = []) :
    Connects conninfo connection (.stage stage) new := by
  refine ⟨script, same, ?_, ?_, ?_, article, msgid⟩
  · intro other same
    cases same
    exact state
  · intro other same
    cases same
    exact sockOpen
  · intro result same
    cases same

theorem Connects.concluded {conninfo : ConnectionInfo} {connection : Connection α} {result : ConnectResult}
    {new : List (Occurrence α)} (script : Connecting conninfo (.connectHandler result) new)
    (same : connection.conninfo = conninfo)
    (login : connection.state = .connectedAndAuthenticated ↔ result = .connectSuccess)
    (sockOpen : result = .connectSuccess → connection.sockOpen = true)
    (article : connection.article = none) (msgid : connection.msgid = []) :
    Connects conninfo connection (.connectHandler result) new := by
  refine ⟨script, same, ?_, ?_, ?_, article, msgid⟩
  · intro stage same
    cases same
  · intro stage same
    cases same
  · intro other same
    cases same
    exact ⟨login, sockOpen⟩

theorem connects_follows (conninfo : ConnectionInfo) : Follows heap (Connects conninfo) := by
  rintro connection stage outcome new ⟨script, rfl, state, sockOpen, -, article, msgid⟩
  replace state := state stage rfl
  replace sockOpen := sockOpen stage rfl
  have going {state : State} {sockOpen : Bool} {readbuf : Bytes} {stage : Stage} {occurred : List (Occurrence α)}
      (continues : Connecting connection.conninfo (.stage stage) occurred) (enters : state = entry stage)
      (opens : sockOpen = true) :
      Connects connection.conninfo { connection with state, sockOpen, readbuf } (.stage stage) occurred :=
    .midway continues rfl enters (fun _ => opens) article msgid
  have failing {readbuf : Bytes} {occurred : List (Occurrence α)}
      (concludes : Connecting connection.conninfo (.connectHandler .fatalConnectError) occurred)
      (begun : connection.state ≠ .connectedAndAuthenticated) :
      Leads (Connects connection.conninfo) ({ connection with readbuf }.connectHandlerCallback .fatalConnectError) occurred := by
    refine leads_post (.concluded concludes rfl ⟨fun now => absurd now begun, fun success => ?_⟩ (fun success => ?_) article msgid)
    all_goals cases success
  have checking {readbuf line : Bytes} {occurred : List (Occurrence α)} (opens : connection.sockOpen = true)
      (begun : connection.state ≠ .connectedAndAuthenticated)
      (concludes : Connecting connection.conninfo
        (.connectHandler (if line.head? = some 50 then .connectSuccess else .invalidCredentials)) occurred) :
      Leads (Connects connection.conninfo) ({ connection with readbuf }.checkAuthinfoResult line) occurred := by
    rw [checkAuthinfoResult]
    split
    next success =>
      rw [if_pos success] at concludes
      exact leads_post (.concluded concludes rfl ⟨fun _ => rfl, fun _ => rfl⟩ (fun _ => opens) article msgid)
    next failure =>
      rw [if_neg failure] at concludes
      refine leads_post (.concluded concludes rfl ⟨fun now => absurd now begun, fun success => ?_⟩ (fun success => ?_) article msgid)
      all_goals cases success
  have begun (later : entry stage = .connecting) : connection.state ≠ .connectedAndAuthenticated := by simp [state, later]
  cases script with
  | accepted =>
    refine ⟨.stage .resolved, rfl, .midway .resolving rfl rfl (fun early => ?_) article msgid⟩
    cases early
  | resolving =>
    apply leads_branch rfl rfl
    · exact failing (.fails rfl .resolving) (begun rfl)
    · exact leads_timed rfl (going .connecting state rfl)
  | connecting =>
    apply leads_branch rfl rfl
    · exact failing (.fails rfl .connecting) (begun rfl)
    · split
      next tls => exact leads_preceded (leads_timed rfl (going (.handshaking tls) state (sockOpen rfl)))
      next plain =>
        have reached : Connecting connection.conninfo (.stage .greeted) [done .connected, (done .resolved : Occurrence α)] := by
          have usual := @Connecting.established α connection.conninfo
          rwa [transport, if_neg plain] at usual
        exact leads_preceded (leads_readLine (going reached state (sockOpen rfl)))
  | handshaking tls =>
    apply leads_branch rfl rfl
    · exact failing (.fails rfl (.handshaking tls)) (begun rfl)
    · have reached := @Connecting.established α connection.conninfo
      rw [transport, if_pos tls] at reached
      exact leads_preceded (leads_readLine (going reached state (sockOpen rfl)))
  | established =>
    apply leads_onLine rfl rfl
    · intro line readbuf
      split
      next unwelcome => exact failing (.refused unwelcome) (begun rfl)
      next welcome => exact leads_write (going (.naming (not_not.mp welcome)) state (sockOpen rfl))
    · exact fun readbuf => failing (.fails rfl .established) (begun rfl)
  | naming welcome =>
    apply leads_onWritten rfl rfl
    · exact leads_readLine (going (.named welcome) state (sockOpen rfl))
    · exact failing (.fails rfl (.naming welcome)) (begun rfl)
  | named welcome =>
    apply leads_onLine rfl rfl
    · intro line readbuf
      split
      next asks => exact leads_write (going (.keying welcome asks) state (sockOpen rfl))
      next final => exact checking (sockOpen rfl) (begun rfl) (.nameChecked welcome (Bool.eq_false_iff.mpr final))
    · exact fun readbuf => failing (.fails rfl (.named welcome)) (begun rfl)
  | keying welcome asks =>
    apply leads_onWritten rfl rfl
    · exact leads_readLine (going (.keyed welcome asks) state (sockOpen rfl))
    · exact failing (.fails rfl (.keying welcome asks)) (begun rfl)
  | keyed welcome asks =>
    apply leads_onLine rfl rfl
    · exact fun line readbuf => checking (sockOpen rfl) (begun rfl) (.keyChecked welcome asks)
    · exact fun readbuf => failing (.fails rfl (.keyed welcome asks)) (begun rfl)

/-- The transport is there, with a handshake where the connection is encrypted. -/
def Established (conninfo : ConnectionInfo) (new : List (Occurrence α)) : Prop :=
  done .resolved ∈ new ∧ done .connected ∈ new ∧ (conninfo.tls = true → done .handshaken ∈ new)

def Greeted (new : List (Occurrence α)) : Prop := ∃ line, answered .greeted line ∈ new ∧ line.head? = some 50

/-- The answer to the user name, unless it asks for the password, or else the answer to that. -/
def Final (line : Bytes) (new : List (Occurrence α)) : Prop :=
  (answered .usernameAnswered line ∈ new ∧ wantsPassword line = false) ∨
    ((∃ asking, answered .usernameAnswered asking ∈ new ∧ wantsPassword asking = true) ∧
      answered .passwordAnswered line ∈ new)

/-- When which result of connecting is reported. -/
structure ConnectVerdict (conninfo : ConnectionInfo) (new : List (Occurrence α)) (result : ConnectResult) : Prop where
  success : result = .connectSuccess ↔
    Established conninfo new ∧ Greeted new ∧ ∃ line, Final line new ∧ line.head? = some 50
  invalidCredentials : result = .invalidCredentials ↔
    ¬ Broken new ∧ Greeted new ∧ ∃ line, Final line new ∧ line.head? ≠ some 50
  fatal : result = .fatalConnectError ↔ Broken new ∨ ¬ Greeted new

/-- The user name is written after the greeting, and the password after it has been asked for. -/
def InOrder (conninfo : ConnectionInfo) : List (Occurrence α) → Prop
  | [] => True
  | .wrote buffers handler :: before =>
    ((handler = .usernameWritten ∧ buffers = usernameLine conninfo ∧ Established conninfo before ∧ Greeted before) ∨
      (handler = .passwordWritten ∧ buffers = passwordLine conninfo ∧
        .wrote (usernameLine conninfo) .usernameWritten ∈ before ∧
        ∃ line, answered .usernameAnswered line ∈ before ∧ wantsPassword line = true)) ∧
      InOrder conninfo before
  | _ :: before => InOrder conninfo before

theorem transport_established (conninfo : ConnectionInfo) : Established conninfo (transport conninfo : List (Occurrence α)) := by
  rw [transport]
  split
  next tls => simp [Established]
  next plain => simp [Established, plain]

theorem transport_inOrder (conninfo : ConnectionInfo) : InOrder conninfo (transport conninfo : List (Occurrence α)) := by
  rw [transport]
  split
  · trivial
  · trivial

theorem nameSent_inOrder {greeting : Bytes} (welcome : greeting.head? = some 50) :
    InOrder conninfo (nameSent conninfo greeting : List (Occurrence α)) := by
  refine ⟨.inl ⟨rfl, rfl, ?_, greeting, List.mem_cons_self .., welcome⟩, transport_inOrder conninfo⟩
  obtain ⟨resolved, connected, handshaken⟩ := transport_established (α := α) conninfo
  exact ⟨List.mem_cons_of_mem _ resolved, List.mem_cons_of_mem _ connected,
    fun tls => List.mem_cons_of_mem _ (handshaken tls)⟩

theorem keySent_inOrder {greeting line : Bytes} (welcome : greeting.head? = some 50)
    (asks : wantsPassword line = true) : InOrder conninfo (keySent conninfo greeting line : List (Occurrence α)) :=
  ⟨.inr ⟨rfl, rfl, by simp [nameSent], line, List.mem_cons_self .., asks⟩, nameSent_inOrder welcome⟩

theorem connecting_inOrder {handler : Handler α} {new : List (Occurrence α)} (script : Connecting conninfo handler new) :
    InOrder conninfo new := by
  induction script with
  | fails told before ih => exact ih
  | accepted => trivial
  | resolving => trivial
  | connecting => trivial
  | handshaking tls => trivial
  | established => exact transport_inOrder conninfo
  | naming welcome => exact nameSent_inOrder welcome
  | named welcome => exact nameSent_inOrder welcome
  | keying welcome asks => exact keySent_inOrder welcome asks
  | keyed welcome asks => exact keySent_inOrder welcome asks
  | refused unwelcome => exact transport_inOrder conninfo
  | nameChecked welcome final => exact nameSent_inOrder welcome
  | keyChecked welcome asks => exact keySent_inOrder welcome asks

theorem connecting_verdict {handler : Handler α} {new : List (Occurrence α)}
    (script : Connecting conninfo handler new) (callback : ∀ stage, handler ≠ .stage stage) :
    ∃ result, handler = .connectHandler result ∧ ConnectVerdict conninfo new result := by
  cases script with
  | @fails stage new told before =>
    refine ⟨_, rfl, ?_⟩
    cases before with
    | accepted => cases told
    | keying welcome asks | keyed welcome asks =>
      by_cases tls : conninfo.tls = true <;> constructor <;>
        simp [Broken, Established, Greeted, Final, broken, done, answered, transport, nameSent, keySent, tls, welcome, asks]
    | naming welcome | named welcome =>
      by_cases tls : conninfo.tls = true <;> constructor <;>
        simp [Broken, Established, Greeted, Final, broken, done, answered, transport, nameSent, tls, welcome]
    | _ =>
      by_cases tls : conninfo.tls = true <;> constructor <;>
        simp [Broken, Established, Greeted, Final, broken, done, answered, transport, tls]
  | refused unwelcome =>
    refine ⟨_, rfl, ?_⟩
    by_cases tls : conninfo.tls = true <;> constructor <;>
      simp [Broken, Established, Greeted, Final, done, answered, transport, tls, unwelcome]
  | @nameChecked greeting line welcome final =>
    refine ⟨_, rfl, ?_⟩
    by_cases success : line.head? = some 50 <;> by_cases tls : conninfo.tls = true <;> constructor <;>
      simp [Broken, Established, Greeted, Final, done, answered, transport, nameSent, tls, welcome, success, final]
  | @keyChecked greeting line reply welcome asks =>
    refine ⟨_, rfl, ?_⟩
    by_cases success : reply.head? = some 50 <;> by_cases tls : conninfo.tls = true <;> constructor <;>
      simp [Broken, Established, Greeted, Final, done, answered, transport, nameSent, keySent, tls, welcome, success, asks]
  | _ => exact absurd rfl (callback _)

theorem connecting_silent {handler : Handler α} {new : List (Occurrence α)} (script : Connecting conninfo handler new)
    (other : Handler α) : .invoked other ∉ new := by
  induction script with
  | fails told before ih => simp [broken, ih]
  | _ =>
    by_cases tls : conninfo.tls = true <;> simp [done, answered, keySent, nameSent, transport, tls]

end Post2Usenet.Proofs.Logins
