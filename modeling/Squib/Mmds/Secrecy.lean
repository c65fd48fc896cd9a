import Squib.Mmds.Session

/-!
# What the guest learns without a valid token
-/

namespace Squib.Metadata

open Run

/-! ## The request that a segment completes -/

def Conn.request (c : Conn) (tcp : TcpHeader) (payload : List UInt8) : Option HttpRequest :=
  if c.Takes tcp payload then
    match parseHttp (c.rcvBuf ++ payload) with
    | .complete req => some req
    | _ => none
  else none

def Flow.request (flow : Option Conn) (tcp : TcpHeader) (payload : List UInt8) :
    Option HttpRequest :=
  if tcp.isRst = true ∨ Flow.Opens tcp then none else flow.bind (·.request tcp payload)

theorem parseHttp_of_tryParseHttp {checks : Bool} {buf : List UInt8} {outcome : HttpParseOutcome}
    (h : tryParseHttp checks buf = .ok outcome) : parseHttp buf = outcome := by
  by_cases hover : LengthOverflow buf
  · obtain ⟨crash, hcrash⟩ : ∃ crash, tryParseHttp checks buf = .error crash :=
      tryParseHttp_error hover
    rw [hcrash] at h
    cases h
  · rw [tryParseHttp_eq hover] at h
    exact Except.ok.inj h

namespace TcpServer

variable {s : TcpServer} {η : Type} {checks : Bool} {handler handler' : Handler η} {key : ConnKey}
  {tcp : TcpHeader} {payload : List UInt8} {h : η} {c : Conn}

theorem onData_congr (hc : s.conns.lookup key = some c)
    (hreq : ∀ req, parseHttp (c.rcvBuf ++ payload) = .complete req →
      handler req h = handler' req h) :
    s.onData checks handler key payload h = s.onData checks handler' key payload h := by
  unfold onData
  rw [hc]
  dsimp only
  cases hparse : tryParseHttp checks (c.rcvBuf ++ payload) with
  | error e => rw [Checked.error_bind, Checked.error_bind]
  | ok outcome =>
    rw [Checked.ok_bind, Checked.ok_bind]
    cases outcome with
    | complete req =>
      dsimp only
      rw [hreq req (parseHttp_of_tryParseHttp hparse)]
    | incomplete => rfl
    | malformed => rfl
    | tooLarge => rfl

theorem dispatch_congr
    (hreq : ∀ req, Flow.request (s.conns.lookup key) tcp payload = some req →
      handler req h = handler' req h) :
    s.dispatch checks handler key tcp payload h = s.dispatch checks handler' key tcp payload h := by
  unfold dispatch
  by_cases hrst : tcp.isRst = true
  · rw [if_pos hrst, if_pos hrst]
  rw [if_neg hrst, if_neg hrst]
  by_cases hsyn : tcp.isSyn = true ∧ ¬ tcp.isAck = true
  · rw [if_pos hsyn, if_pos hsyn]
  rw [if_neg hsyn, if_neg hsyn]
  have hopen : ¬ Flow.Opens tcp := fun ho => hsyn ⟨ho.2.1, by simp [ho.2.2]⟩
  cases hc : s.conns.lookup key with
  | none => rfl
  | some c =>
    -- the data reaches the parser only if the connection takes it
    have hdata : c.Takes tcp payload → ∀ t : TcpServer, ∀ d : Conn, d.rcvBuf = c.rcvBuf →
        (t.put key d).onData checks handler key payload h =
          (t.put key d).onData checks handler' key payload h := fun htakes t d hd =>
      onData_congr (AList.lookup_insert _) fun req hparse => hreq req <| by
        rw [Flow.request, if_neg (not_or.2 ⟨hrst, hopen⟩), hc, Option.bind_some, Conn.request,
          if_pos htakes, ← hd, hparse]
    have hbuf : (c.note (.received tcp payload)).rcvBuf = c.rcvBuf := rfl
    have htakes : c.Takes tcp payload ↔ (c.note (.received tcp payload)).Takes tcp payload := Iff.rfl
    dsimp only
    rw [htakes] at hdata
    generalize c.note (.received tcp payload) = d at hbuf hdata ⊢
    by_cases hseq : tcp.seq ≠ d.rcvNxt ∧ payload ≠ []
    · rw [if_pos hseq, if_pos hseq]
    rw [if_neg hseq, if_neg hseq]
    have hin : payload ≠ [] → tcp.seq = d.rcvNxt := fun hp => by
      by_contra hne
      exact hseq ⟨hne, hp⟩
    cases hstate : d.state with
    | lastAck => rfl
    | established =>
      dsimp only
      by_cases hp : payload = []
      · rw [if_neg (not_not.2 hp), if_neg (not_not.2 hp)]
      · rw [if_pos hp, if_pos hp, hdata ⟨hp, hin hp, .inl hstate⟩ s d hbuf]
    | synReceived =>
      dsimp only
      by_cases hack : tcp.isAck = true ∧ tcp.ack = d.sndNxt
      · rw [if_pos hack, if_pos hack]
        by_cases hp : payload = []
        · rw [if_neg (not_not.2 hp), if_neg (not_not.2 hp)]
        · rw [if_pos hp, if_pos hp]
          exact hdata ⟨hp, hin hp, .inr ⟨hstate, hack⟩⟩ _ _ hbuf
      · rw [if_neg hack, if_neg hack]

end TcpServer

section Handler

variable {Value : Type} (ext : External Value) (env : Env)

def HttpRequest.Authorized (tokens : TokenStore) (now : ℕ) (req : HttpRequest) : Prop :=
  req.method = Text.bytes "GET" ∧ ∃ token, req.tokenHeader = some token ∧ tokens.Valid now token

instance (tokens : TokenStore) (now : ℕ) (req : HttpRequest) :
    Decidable (req.Authorized tokens now) :=
  decidable_of_iff (req.method = Text.bytes "GET" ∧
      req.tokenHeader.any (fun token => tokens.Valid now token) = true) <| by
    simp [HttpRequest.Authorized, Option.any_eq_true]

def Mmds.withData (mmds : Mmds Value) (data : Value) : Mmds Value := { mmds with data }

theorem httpHandler_withData {mmds : Mmds Value} (data : Value) (hv : mmds.version = .v2)
    {req : HttpRequest} {tokens : TokenStore} (hreq : ¬ req.Authorized tokens env.now) :
    httpHandler ext env (mmds.withData data) req tokens = httpHandler ext env mmds req tokens := by
  have hserve : serviceHttpRequest ext env (mmds.withData data) req tokens =
      serviceHttpRequest ext env mmds req tokens := by
    have hv' : (mmds.withData data).version = .v2 := hv
    have hcap : (mmds.withData data).sizeCap = mmds.sizeCap := rfl
    unfold serviceHttpRequest
    rw [hv, hv', hcap]
    by_cases hget : req.method = Text.bytes "GET"
    · cases htoken : req.tokenHeader with
      | none => rfl
      | some token =>
        have hinvalid : (tokens.validate env.now token).1 = false := by
          rw [← Bool.not_eq_true, TokenStore.validate_eq_true_iff]
          exact fun hvalid => hreq ⟨hget, token, htoken, hvalid⟩
        simp [hinvalid]
    · simp only [hget, if_false]
  rw [httpHandler, httpHandler, hserve]

end Handler

/-! ## Two runs -/

namespace MmdsInterceptor

variable {Value : Type}

def withData (s : MmdsInterceptor Value) (data : Value) : MmdsInterceptor Value :=
  { s with mmds := s.mmds.withData data }

def request (s : MmdsInterceptor Value) (frame : List UInt8) : Option HttpRequest :=
  (s.arrival frame).bind fun a => Flow.request (s.flow a.key) a.hdr a.payload

theorem decline_withData (s : MmdsInterceptor Value) (data : Value) (frame : List UInt8) :
    (s.withData data).decline frame =
      ((s.decline frame).1, (s.decline frame).2.withData data) := by
  have harp : (s.withData data).arpRequest frame = s.arpRequest frame := rfl
  have htcp : (s.withData data).tcpPacket frame = s.tcpPacket frame := rfl
  simp only [decline, harp, htcp]
  cases s.arpRequest frame with
  | some sender => rfl
  | none => cases s.tcpPacket frame <;> rfl

theorem serve_withData {s : MmdsInterceptor Value} {checks : Bool} {ext : External Value} {env : Env}
    {a : Arrival} (data : Value) (hv : s.mmds.version = .v2)
    (hreq : ∀ req, Flow.request (s.flow a.key) a.hdr a.payload = some req →
      ¬ req.Authorized s.tokens env.now) :
    (s.withData data).serve checks ext env a =
      (s.serve checks ext env a).map fun t => t.withData data := by
  have hdispatch : TcpServer.dispatch { s.tcp with guestMac := some a.mac } checks
      (httpHandler ext env (s.mmds.withData data)) a.key a.hdr a.payload s.tokens =
      TcpServer.dispatch { s.tcp with guestMac := some a.mac } checks
        (httpHandler ext env s.mmds) a.key a.hdr a.payload s.tokens :=
    TcpServer.dispatch_congr fun req h => httpHandler_withData ext env data hv (hreq req h)
  unfold serve
  change (TcpServer.dispatch { s.tcp with guestMac := some a.mac } checks
    (httpHandler ext env (s.mmds.withData data)) a.key a.hdr a.payload s.tokens >>= _) = _
  rw [hdispatch]
  cases TcpServer.dispatch { s.tcp with guestMac := some a.mac } checks
      (httpHandler ext env s.mmds) a.key a.hdr a.payload s.tokens with
  | error e => rfl
  | ok r => rfl

end MmdsInterceptor

namespace Session

variable {Value : Type}

def Unauthorized (s : Session Value) : Event → Prop
  | .frame env bytes => ∀ req, s.endpoint.request bytes = some req →
      ¬ req.Authorized s.endpoint.tokens env.now
  | _ => True

instance (s : Session Value) (e : Event) : Decidable (s.Unauthorized e) :=
  match e with
  | .frame env bytes =>
    decidable_of_iff ((s.endpoint.request bytes).all
      (fun req => ¬ req.Authorized s.endpoint.tokens env.now) = true) <| by
      simp [Unauthorized, Option.all_eq_true]
  | .drain => .isTrue trivial
  | .setIpv4 _ => .isTrue trivial

def frames (s : Session Value) : List (List UInt8) × List (List UInt8) :=
  (s.delivered, s.endpoint.pendingRx)

def withData (s : Session Value) (data : Value) : Session Value :=
  { s with endpoint := s.endpoint.withData data }

variable {checks : Bool} {ext : External Value} {s t : Session Value} {e : Event}

theorem version_step (h : s.step checks ext e = some t) :
    t.endpoint.mmds.version = s.endpoint.mmds.version := by
  obtain ⟨-, hquiet⟩ | ⟨env, a, -, hserved⟩ := step_cases h
  · rw [hquiet.mmds]
  · rw [hserved.mmds]

theorem step_withData (data : Value) (hv : s.endpoint.mmds.version = .v2) (hno : s.Unauthorized e) :
    (s.withData data).step checks ext e = (s.step checks ext e).map fun t => t.withData data := by
  cases e with
  | drain => rfl
  | setIpv4 ip => rfl
  | frame env bytes =>
    have harrival : (s.withData data).endpoint.arrival bytes = s.endpoint.arrival bytes := rfl
    rw [step, step, MmdsInterceptor.intercept_eq, MmdsInterceptor.intercept_eq, harrival]
    cases ha : s.endpoint.arrival bytes with
    | none =>
      rw [show (s.withData data).endpoint = s.endpoint.withData data from rfl,
        MmdsInterceptor.decline_withData]
      rfl
    | some a =>
      have hserve : (s.endpoint.withData data).serve checks ext env a =
          (s.endpoint.serve checks ext env a).map fun t => t.withData data := by
        refine MmdsInterceptor.serve_withData data hv fun req hreq => hno req ?_
        rw [MmdsInterceptor.request, ha, Option.bind_some, hreq]
      dsimp only
      rw [show (s.withData data).endpoint = s.endpoint.withData data from rfl, hserve]
      cases s.endpoint.serve checks ext env a with
      | error e => rfl
      | ok t => rfl

/-- **The frames do not depend on the data**, as long as no valid token is shown. -/
theorem frames_eq_of_data (checks : Bool) (ext : External Value) (mmds mmds' : Mmds Value)
    (tokens : TokenStore) (es : List Event) (hv : mmds.version = .v2) (hv' : mmds'.version = .v2)
    (hcap : mmds.sizeCap = mmds'.sizeCap)
    (hno : Along (step checks ext) Unauthorized es (start mmds tokens)) :
    (run (step checks ext) es (start mmds' tokens)).map frames =
      (run (step checks ext) es (start mmds tokens)).map frames := by
  have hdata : mmds' = mmds.withData mmds'.data := by
    cases mmds'
    cases mmds
    cases hv
    cases hv'
    cases hcap
    rfl
  have hstart : start mmds' tokens = (start mmds tokens).withData mmds'.data := by
    rw [hdata]
    rfl
  have hversion : Along (step checks ext) (fun s _ => s.endpoint.mmds.version = .v2) es
      (start mmds tokens) :=
    Along.of_invariant (fun s e t hs h => (version_step h).trans hs) es hv
  rw [hstart, run_map (fun s e hs => step_withData mmds'.data hs.1 hs.2) (hversion.and hno),
    Option.map_map]
  rfl

end Session

section Scenario

open Session

def bitExternal : External Bool where
  encode := id
  pointer _ _ := none
  toVec b := some (Text.bytes (toString b))

def bitStore (b : Bool) : Mmds Bool := { version := .v2, data := b, sizeCap := 8192 }

def askBit : List Event :=
  [.frame stillEnv (guestFrame 99 0 TCP_SYN []),
    .frame stillEnv (guestFrame 100 0x40000001 TCP_ACK []),
    .frame stillEnv (guestFrame 100 0x40000001 TCP_ACK
      (Text.bytes "GET / HTTP/1.1\r\nX-aws-ec2-metadata-token: guess\r\n\r\n")),
    .drain]

theorem frames_eq_of_bit :
    (run (step true bitExternal) askBit (start (bitStore true) .new)).map frames =
      (run (step true bitExternal) askBit (start (bitStore false) .new)).map frames :=
  frames_eq_of_data true bitExternal (bitStore false) (bitStore true) .new askBit rfl rfl rfl
    (by decide +kernel)

end Scenario

end Squib.Metadata
