import CommandRelay.Server.NotificationSize
import CommandRelay.Server.Ownership
import CommandRelay.Server.PushEncryption
import CommandRelay.Server.Volume

/-!
# Requests to push services

A fan-out sends the notification to one push service after another.  A request goes to the
public host that a subscription names, and a subscription is only used for notifications of
the account whose device has stored it.
-/

namespace CommandRelay

open Foundation

/-- The keys of a browser's subscription, in base64url. -/
structure SubscriptionKeys where
  p256dh : String
  auth : String

/-- A browser's subscription, as far as the relay reads it. -/
structure SubscriptionInfo where
  endpoint : String
  keys : SubscriptionKeys

/-- What the push manager sends with: the crypto stack, the parsers and its VAPID key. -/
structure PushService (SecretKey PublicKey : Type) where
  crypto : PushCrypto SecretKey PublicKey
  /-- `serde_json::from_str`. -/
  readSubscription : String -> Except String SubscriptionInfo
  /-- base64url, without padding. -/
  encode : Bytes -> String
  decode : String -> Except String Bytes
  /-- The ES256 signature. -/
  sign : Bytes -> Bytes
  /-- The contact of the relay. -/
  subject : String

/-- What one round trip to a push service meets: the clock, a fresh key and salt, and the
answer. -/
structure RoundTrip (SecretKey : Type) where
  unix : Except String Nat
  asSecret : SecretKey
  salt : Vector UInt8 16
  answer : Except String UInt16

/-- A request to a push service. -/
structure PushRequest where
  endpoint : String
  url : Url
  headers : List (String × String)
  body : Bytes

def pushTtlSecs : Nat := 24 * 60 * 60

section

variable {SecretKey PublicKey : Type}

namespace PushService

variable (service : PushService SecretKey PublicKey)

def b64urlDecode (s : String) : Except String Bytes :=
  service.decode (String.ofList (s.toList.reverse.dropWhile (· = '=')).reverse)

def vapidJwt (audience : String) (unix : Except String Nat) : Except PushError String := do
  let now <- unix.mapError .key
  let exp := now + 12 * 60 * 60
  let header := service.encode (textBytes "\x7b\"typ\":\"JWT\",\"alg\":\"ES256\"\x7d")
  let claims := service.encode (textBytes (Json.object [("aud", .string audience),
    ("exp", .number (.nat exp)), ("sub", .string service.subject)]).toText)
  let signingInput := header ++ "." ++ claims
  return signingInput ++ "." ++ service.encode (service.sign (textBytes signingInput))

/-- What `send_one` does before it hands a request to the HTTP client. -/
def request (env : Env) (trip : RoundTrip SecretKey) (subJson : String) (plaintext : Bytes) :
    Except PushError PushRequest := do
  let sub <- (service.readSubscription subJson).mapError .subscription
  let uaPublic <- (service.b64urlDecode sub.keys.p256dh).mapError fun e =>
    .subscription ("p256dh: " ++ e)
  let authSecret <- (service.b64urlDecode sub.keys.auth).mapError fun e =>
    .subscription ("auth: " ++ e)
  let body <- service.crypto.encryptAes128gcmInner trip.asSecret trip.salt uaPublic authSecret
    plaintext
  if isValidPushEndpoint env.parseUrl sub.endpoint then
    match env.parseUrl sub.endpoint with
    | none => throw (.subscription "bad endpoint URL")
    | some url =>
        match url.host with
        | none => throw (.subscription "endpoint has no host")
        | some host =>
            let jwt <- service.vapidJwt (url.scheme ++ "://" ++ host) trip.unix
            return {
              endpoint := sub.endpoint
              url := url
              headers := [("TTL", toString pushTtlSecs), ("Content-Encoding", "aes128gcm"),
                ("Content-Type", "application/octet-stream"), ("Urgency", "normal"),
                ("Authorization", "vapid t=" ++ jwt ++ ", k=" ++ env.publicKey)]
              body := body }
  else throw (.subscription "endpoint rejected")

end PushService

/-!
## What is in a request
-/

theorem mapError_eq_ok {ε ε' α : Type} {f : ε -> ε'} {x : Except ε α} {a : α} :
    x.mapError f = .ok a <-> x = .ok a := by
  cases x <;> simp [Except.mapError]

theorem except_bind_eq_ok {ε α β : Type} {x : Except ε α} {f : α -> Except ε β} {b : β} :
    (x >>= f) = .ok b <-> exists a, x = .ok a ∧ f a = .ok b := by
  cases x <;> simp [bind, Except.bind]

/-- The request is what the subscription asks for: its endpoint is public, and its body is the
plaintext encrypted for its keys. -/
structure PushService.Serves (service : PushService SecretKey PublicKey) (env : Env)
    (info : SubscriptionInfo) (plaintext : Bytes) (p : PushRequest) : Prop where
  endpoint : p.endpoint = info.endpoint
  url : env.parseUrl info.endpoint = some p.url
  isPublic : isValidPushEndpoint env.parseUrl info.endpoint = true
  body : exists asSecret salt uaPublic authSecret,
    service.b64urlDecode info.keys.p256dh = .ok uaPublic ∧
      service.b64urlDecode info.keys.auth = .ok authSecret ∧
      service.crypto.encryptAes128gcmInner asSecret salt uaPublic authSecret plaintext =
        .ok p.body

theorem PushService.serves_of_request {service : PushService SecretKey PublicKey} {env : Env}
    {trip : RoundTrip SecretKey} {subJson : String} {plaintext : Bytes} {p : PushRequest}
    (h : service.request env trip subJson plaintext = .ok p) :
    exists info, service.readSubscription subJson = .ok info ∧
      service.Serves env info plaintext p := by
  unfold request at h
  rcases except_bind_eq_ok.mp h with ⟨info, hinfo, h⟩
  rcases except_bind_eq_ok.mp h with ⟨uaPublic, hpublic, h⟩
  rcases except_bind_eq_ok.mp h with ⟨authSecret, hauth, h⟩
  rcases except_bind_eq_ok.mp h with ⟨body, hbody, h⟩
  refine ⟨info, mapError_eq_ok.mp hinfo, ?_⟩
  by_cases hvalid : isValidPushEndpoint env.parseUrl info.endpoint = true
  · rw [if_pos hvalid] at h
    cases hurl : env.parseUrl info.endpoint with
    | none => simp [hurl, throw, throwThe, MonadExceptOf.throw] at h
    | some url =>
        cases hhost : url.host with
        | none => simp [hurl, hhost, throw, throwThe, MonadExceptOf.throw] at h
        | some host =>
            simp only [hurl, hhost] at h
            rcases except_bind_eq_ok.mp h with ⟨jwt, _, h⟩
            cases h
            exact ⟨rfl, hurl, hvalid, trip.asSecret, trip.salt, uaPublic, authSecret,
              mapError_eq_ok.mp hpublic, mapError_eq_ok.mp hauth, hbody⟩
  · rw [if_neg hvalid] at h
    cases h

end

/-!
## The relay and its fan-outs
-/

/-- The relay, the fan-outs started so far, oldest first, and the requests they have made,
newest first. -/
structure Notifier where
  relay : Relay
  fanOuts : List FanOut
  requests : List PushRequest

/-- A step of the relay, or the next step of a fan-out. -/
inductive NotifierLabel (SecretKey : Type) where
  | relay (l : RelayLabel)
  | resume (i : Nat) (dbFault : Bool) (trip : RoundTrip SecretKey)

def Relay.starts (s : Relay) : RelayLabel -> List FanOut
  | .resume c _ => ((s.upcoming c).map Call.spawned).getD []
  | _ => []

def Relay.setDatabase (s : Relay) (db : Database) : Relay :=
  { s with app := { s.app with database := db } }

section

variable {SecretKey PublicKey : Type}

def FanOut.request? (service : PushService SecretKey PublicKey) (env : Env)
    (trip : RoundTrip SecretKey) (t : FanOut) : Option (Except PushError PushRequest) :=
  match t.task with
  | .invoke (.sendOne subJson body) _ =>
      some (service.request env trip subJson (textBytes body))
  | _ => none

def RoundTrip.answerTo (trip : RoundTrip SecretKey) :
    Option (Except PushError PushRequest) -> Except PushError UInt16
  | some (.error e) => .error e
  | _ => trip.answer.mapError fun e => .crypto ("http: " ++ e)

namespace Notifier

def init (auth : AuthManager) (database : Database) : Notifier where
  relay := Relay.init auth database
  fanOuts := []
  requests := []

def step (service : PushService SecretKey PublicKey) (env : Env) (s : Notifier) :
    NotifierLabel SecretKey -> Option Notifier
  | .relay l =>
      (s.relay.step env l).map fun relay =>
        { s with relay := relay, fanOuts := s.fanOuts ++ s.relay.starts l }
  | .resume i dbFault trip =>
      match s.fanOuts[i]? with
      | none => none
      | some t =>
          let request := t.request? service env trip
          match t.resume dbFault (trip.answerTo request) s.relay.database with
          | none => none
          | some (db, t') =>
              some
                { relay := s.relay.setDatabase db
                  fanOuts := s.fanOuts.set i t'
                  requests := (request.bind Except.toOption).toList ++ s.requests }

def Runs (service : PushService SecretKey PublicKey) (env : Env) (auth : AuthManager)
    (database : Database) (labels : List (NotifierLabel SecretKey)) (s : Notifier) : Prop :=
  follow (step service env) (init auth database) labels = some s

/-- A device gets an id that was never given before. -/
def GivesFreshIds (initial : Database) (s : Notifier) : NotifierLabel SecretKey -> Prop
  | .relay l => s.relay.GivesFreshIds initial l
  | .resume .. => True

instance decidableGivesFreshIds (initial : Database) (s : Notifier) :
    (l : NotifierLabel SecretKey) -> Decidable (s.GivesFreshIds initial l)
  | .relay l => inferInstanceAs (Decidable (s.relay.givesFreshIds initial l = true))
  | .resume .. => inferInstanceAs (Decidable True)

end Notifier

end

/-!
## What leads to a push
-/

namespace Call

def usesPush : Call -> Bool
  | upsertPushSubscription .. | pushToUser .. => true
  | _ => false

end Call

/-- What leads a handler to store a subscription, or to push. -/
inductive PushCause (env : Env) (frame : Inbound) (role : ConnectionRole) : Call -> Prop where
  | elsewhere {call} (hcall : call.usesPush = false) : PushCause env frame role call
  | subscribes {u d subscription endpoint} (hrole : role = .client u d)
      (hframe : frame.control? = some (.pushSubscribe subscription))
      (hendpoint : (subscription.get? "endpoint").bind Json.asStr? = some endpoint)
      (hvalid : isValidPushEndpoint env.parseUrl endpoint = true) :
      PushCause env frame role (.upsertPushSubscription d u subscription.toText)
  | notifies {u sessionId title body} (hrole : role = .desktop u)
      (hframe : frame.control? = some (.sessionNotification sessionId title body)) :
      PushCause env frame role (.pushToUser u (notificationPayload sessionId title body))

namespace Handler

section

variable {env : Env} {frame : Inbound} {role : ConnectionRole} {past : List CallAnswer}
  {task : Handler Unit} {c : ConnId} {ip : String}

def Caused (env : Env) (frame : Inbound) (role : ConnectionRole) (past : List CallAnswer)
    (task : Handler Unit) : Prop :=
  Program.Obeys (fun _ call => PushCause env frame role call) past task fun _ _ => True

theorem caused_of_sends {n : Nat} (h : Sends (frameVolume + 1) n task) (hn : n ≤ frameVolume) :
    Caused env frame role past task := by
  induction task generalizing past n with
  | done value => trivial
  | invoke call next ih =>
      refine ⟨.elsewhere ?_, fun r => ih r (h.2 r) (Nat.le_trans (Nat.sub_le _ _) hn)⟩
      have hcost := h.1
      cases call
      case upsertPushSubscription => exact absurd (Nat.le_trans hcost hn) (Nat.not_succ_le_self _)
      case pushToUser => exact absurd (Nat.le_trans hcost hn) (Nat.not_succ_le_self _)
      all_goals rfl

theorem handlePushSubscribe_caused {subscription : Json.Value}
    (hframe : frame.control? = some (.pushSubscribe subscription)) :
    Caused env frame role past (handlePushSubscribe env subscription role) := by
  cases role with
  | client u d =>
      simp only [handlePushSubscribe]
      split
      · trivial
      · split
        · trivial
        · rename_i endpoint hendpoint
          split
          · rename_i hvalid
            split
            · exact ⟨.subscribes rfl hframe hendpoint hvalid, fun _ => trivial⟩
            · trivial
          · trivial
  | _ => trivial

theorem handleSessionNotification_caused {sessionId title body : String}
    (hframe : frame.control? = some (.sessionNotification sessionId title body)) :
    Caused env frame role past (handleSessionNotification sessionId title body role) := by
  cases role with
  | desktop u => exact ⟨.elsewhere rfl, fun _ => ⟨.notifies rfl hframe, fun _ => trivial⟩⟩
  | _ => trivial

theorem processWsMessage_caused (env : Env) (frame : Inbound) (role : ConnectionRole)
    (c : ConnId) (ip : String) :
    Caused env frame role [] (processWsMessage env frame role c ip) := by
  by_cases hplain : forall msg, frame.control? = some msg -> msg.usesPush = false
  · exact caused_of_sends (processWsMessage_sends env frame role c ip (Or.inr hplain))
      (Nat.le_refl _)
  · simp only [not_forall] at hplain
    rcases hplain with ⟨msg, hframe, hpush⟩
    have htask : processWsMessage env frame role c ip =
        handleControlMessage env msg role c ip := processWsMessage_of_control hframe
    rw [htask]
    cases msg
    case pushSubscribe => exact handlePushSubscribe_caused hframe
    case sessionNotification => exact handleSessionNotification_caused hframe
    all_goals exact absurd rfl hpush

end

end Handler

namespace Relay

/-- A connection of a device is about to store its subscription for an account, whose endpoint
is public. -/
def Subscribes (env : Env) (u d text : String) (s : Relay) (c : ConnId) : Prop :=
  exists frame past next subscription endpoint,
    s.activity c = .handling frame (.client u d) past (.invoke (.upsertPushSubscription d u text)
      next) ∧
    frame.control? = some (.pushSubscribe subscription) ∧ text = subscription.toText ∧
    (subscription.get? "endpoint").bind Json.asStr? = some endpoint ∧
    isValidPushEndpoint env.parseUrl endpoint = true

def Notifies (u : String) (payload : Json) (s : Relay) (c : ConnId) : Prop :=
  exists frame past next sessionId title body,
    s.activity c = .handling frame (.desktop u) past (.invoke (.pushToUser u payload) next) ∧
    frame.control? = some (.sessionNotification sessionId title body) ∧
    payload = notificationPayload sessionId title body

/-- What every reachable relay keeps about devices and pushes. -/
structure Accountable (env : Env) (initial : Database) (s : Relay) : Prop where
  sound : Sound s
  owned : s.Owned initial
  caused : forall {c frame role past task}, s.activity c = .handling frame role past task ->
    Handler.Caused env frame role past task

section

variable {env : Env} {initial : Database} {s s' : Relay} {l : RelayLabel} {c : ConnId}
  {u d : String} {db : Database}

theorem accountable_init (auth : AuthManager) (hinitial : initial.Consistent) :
    (init auth initial).Accountable env initial where
  sound := sound_init auth initial
  owned := owned_init auth hinitial
  caused := fun h => by cases h

theorem Accountable.step (h : s.Accountable env initial) (hfresh : s.GivesFreshIds initial l)
    (hstep : step env s l = some s') : s'.Accountable env initial where
  sound := sound_step h.sound (step_transition hstep)
  owned := owned_step h.sound h.owned hfresh hstep
  caused := fun hact => by
    have hcaused := @obeys_step env (fun _ frame role _ call => PushCause env frame role call)
      (fun _ _ _ => True) (fun frame role c ip => Handler.processWsMessage_caused env frame role
        c ip) s s' l (step_transition hstep) (fun hbusy => h.caused hbusy)
    exact hcaused hact

theorem Accountable.setDatabase (h : s.Accountable env initial)
    (hdevice : forall d row, db.device? d = some row -> s.database.device? d = some row)
    (hrow : forall d row, db.subscription? d = some row ->
      s.database.subscription? d = some row) : (s.setDatabase db).Accountable env initial where
  sound :=
    { behaves := h.sound.behaves
      role := h.sound.role
      logged := h.sound.logged
      closing := h.sound.closing }
  owned :=
    { device := fun hd => h.owned.device (hdevice _ _ hd)
      subscription := fun hd => h.owned.subscription (hrow _ _ hd)
      pending := h.owned.pending
      role := h.owned.role
      received := h.owned.received
      checked := h.owned.checked
      taken := h.owned.taken
      unique := h.owned.unique
      justified := h.owned.justified }
  caused := h.caused

theorem row_of_call {app : App} {a : Ambient} {call : Call} {row : PushSubscription}
    (h : (app.exec env a call).1.database.subscription? d = some row) :
    app.database.subscription? d = some row ∨
      exists u, call = .upsertPushSubscription d u row.subscriptionJson := by
  rcases PushState.row_of_exec h with hold | hstored
  · exact Or.inl hold
  · rcases PushState.stored_cases ⟨call, (app.exec env a call).2⟩ with
      hnone | ⟨i, u, text, hsome, rfl⟩
    · rw [hnone] at hstored
      cases hstored
    · rw [hsome] at hstored
      cases hstored
      rcases App.update_cases a app () (app.database.upsertPushSubscription d u text) with
        ⟨e, hsame⟩ | ⟨db, hdb, hupdate⟩
      · rw [App.exec, hsame] at h
        exact Or.inl h
      · rw [App.exec, hupdate] at h
        rcases Database.upsertPushSubscription_eq_ok hdb with ⟨id, new, hid, rfl, hnew⟩
        rcases Database.subscription?_eq_some.mp h with ⟨id', hid', hrow⟩
        have hrow : (app.database.pushSubscriptions.insert id new).lookup id' = some row := hrow
        have hsame : id' = id := Option.some.inj ((Database.deviceKey_eq_some.mpr hid').symm.trans
          (Database.deviceKey_eq_some.mpr hid))
        rw [hsame, AList.lookup_insert, Option.some.injEq] at hrow
        subst hrow
        refine Or.inr ⟨u, ?_⟩
        rcases hnew with ⟨old, _, rfl⟩ | ⟨_, _, _, rfl⟩ <;> rfl

/-- A row was there, or is the subscription that a connection of its device and
its account is about to store. -/
theorem row_step (h : s.Accountable env initial) (hfresh : s.GivesFreshIds initial l)
    (hstep : step env s l = some s') {row : PushSubscription}
    (hrow : s'.database.subscription? d = some row) :
    s.database.subscription? d = some row ∨
      exists c a, l = .resume c a ∧
        s.Subscribes env row.username d row.subscriptionJson c := by
  have hdevice := (h.step hfresh hstep).owned.subscription hrow
  rcases database_step h.sound hstep with hsame | ⟨action, _, hadmin⟩ |
      ⟨c, a, frame, role, past, call, next, hl, hbusy, happ, _⟩
  · rw [database, hsame] at hrow
    exact Or.inl hrow
  · rw [database, hadmin] at hrow
    exact Or.inl (subscription_of_administer hrow)
  · rw [database, happ] at hrow
    rcases row_of_call hrow with hold | ⟨u, rfl⟩
    · exact Or.inl hold
    · refine Or.inr ⟨c, a, hl, ?_⟩
      generalize htext : row.subscriptionJson = text at hbusy
      cases (h.caused hbusy).1 with
      | elsewhere hcall => cases hcall
      | subscribes hrole hframe hendpoint hvalid =>
          subst hrole
          -- The row keeps the account it was first stored for, which is the device's.
          have hu : u = row.username := by
            rcases h.owned.received hbusy with rfl | hreceived
            · rw [subscription?_desktop] at hrow
              cases hrow
            · have hlater := hreceived.step h.sound (step_transition hstep)
              exact (h.step hfresh hstep).owned.unique hlater hdevice
          subst hu
          exact ⟨frame, past, next, _, _, hbusy, hframe, rfl, hendpoint, hvalid⟩

theorem starts_step (h : s.Accountable env initial) {t : FanOut} (ht : t ∈ s.starts l) :
    exists c a u payload, l = .resume c a ∧ s.Notifies u payload c ∧
      t = ⟨[], PushManager.sendToUser u payload⟩ := by
  unfold starts at ht
  split at ht
  · rename_i c a
    cases hnext : s.upcoming c with
    | none => simp [hnext] at ht
    | some call =>
        rcases activity_of_upcoming hnext with ⟨frame, role, past, next, hact⟩
        rw [hnext] at ht
        cases call
        case pushToUser u payload =>
          have ht : t = ⟨[], PushManager.sendToUser u payload⟩ := List.mem_singleton.mp ht
          refine ⟨c, a, u, payload, rfl, ?_, ht⟩
          cases (h.caused hact).1 with
          | elsewhere hcall => cases hcall
          | notifies hrole hframe =>
              subst hrole
              exact ⟨frame, past, next, _, _, _, hact, hframe, rfl⟩
        all_goals cases ht
  · cases ht

end

end Relay

/-!
## Fan-outs
-/

/-- Where a fan-out of an account stands: it has not read the subscriptions, it goes through
some that are stored, or it is about to remove one. -/
inductive Sending (stored : String -> String -> Prop) (u : String) (payload : Json) :
    FanOut -> Prop where
  | started : Sending stored u payload ⟨[], PushManager.sendToUser u payload⟩
  | sending {past rest} (hrest : forall d text, (d, text) ∈ rest -> stored d text) :
      Sending stored u payload ⟨past, PushManager.sendEach payload.toText rest⟩
  | pruning {past d rest} (hrest : forall d text, (d, text) ∈ rest -> stored d text) :
      Sending stored u payload ⟨past, .invoke (.removePushSubscription d) fun _ =>
        PushManager.sendEach payload.toText rest⟩

section

variable {SecretKey PublicKey : Type} {service : PushService SecretKey PublicKey} {env : Env}
  {trip : RoundTrip SecretKey} {stored stored' : String -> String -> Prop} {u : String}
  {payload : Json} {t t' : FanOut} {fault : Bool} {answer : Except PushError UInt16}
  {db db' : Database}

theorem Sending.mono (h : Sending stored u payload t)
    (hstored : forall d text, stored d text -> stored' d text) : Sending stored' u payload t := by
  cases h with
  | started => exact .started
  | sending hrest => exact .sending fun d text hmem => hstored d text (hrest d text hmem)
  | pruning hrest => exact .pruning fun d text hmem => hstored d text (hrest d text hmem)

theorem FanOut.resume_eq_some (h : t.resume fault answer db = some (db', t')) :
    exists past c next, t = ⟨past, .invoke c next⟩ ∧ db' = (c.exec fault answer db).1 ∧
      t' = ⟨⟨c, (c.exec fault answer db).2⟩ :: past, next (c.exec fault answer db).2⟩ := by
  rcases t with ⟨past, task⟩
  cases task with
  | done value => cases h
  | invoke c next =>
      cases h
      exact ⟨past, c, next, rfl, rfl, rfl⟩

theorem FanOut.rows_resume (h : t.resume fault answer db = some (db', t')) :
    (forall d row, db'.subscription? d = some row -> db.subscription? d = some row) ∧
      forall d row, db'.device? d = some row -> db.device? d = some row := by
  rcases resume_eq_some h with ⟨past, c, next, _, rfl, _⟩
  cases c with
  | removePushSubscription i =>
      cases fault with
      | true => exact ⟨fun _ _ hrow => hrow, fun _ _ hrow => hrow⟩
      | false =>
          exact ⟨fun _ _ hrow => Database.subscription?_removePushSubscription hrow,
            fun _ _ hrow => (Database.device?_removePushSubscription i).symm.trans hrow⟩
  | _ => exact ⟨fun _ _ hrow => hrow, fun _ _ hrow => hrow⟩

theorem Sending.resume (h : Sending stored u payload t)
    (hlisted : forall d text, (d, text) ∈ db.listPushSubscriptions u -> stored d text)
    (hstep : t.resume fault answer db = some (db', t')) : Sending stored u payload t' := by
  rcases FanOut.resume_eq_some hstep with ⟨past, c, next, ht, _, rfl⟩
  cases h with
  | started =>
      cases ht
      cases fault with
      | true =>
          show Sending stored u payload ⟨_, PushManager.sendEach payload.toText []⟩
          exact .sending fun d text hmem => by cases hmem
      | false => exact .sending hlisted
  | sending hrest =>
      rename_i earlier rest
      cases rest with
      | nil => cases ht
      | cons entry rest =>
          rcases entry with ⟨d, text⟩
          rcases @PushState.sendEach_cons d text payload.toText rest with ⟨next', hsend, hnext⟩
          have hrest : forall d text, (d, text) ∈ rest -> stored d text :=
            fun d text hmem => hrest d text (List.mem_cons_of_mem _ hmem)
          rw [hsend] at ht
          cases ht
          show Sending stored u payload ⟨_, next' answer⟩
          rcases hnext answer with hgoes | ⟨_, hprunes⟩
          · rw [hgoes]
            exact .sending hrest
          · rw [hprunes]
            exact .pruning hrest
  | pruning hrest =>
      cases ht
      exact .sending hrest

theorem Sending.request (h : Sending stored u payload t)
    {request : Except PushError PushRequest}
    (hrequest : t.request? service env trip = some request) :
    exists d text, stored d text ∧
      request = service.request env trip text (textBytes payload.toText) := by
  cases h with
  | started => cases hrequest
  | sending hrest =>
      rename_i past rest
      cases rest with
      | nil => cases hrequest
      | cons entry rest =>
          rcases entry with ⟨d, text⟩
          cases hrequest
          exact ⟨d, text, hrest d text List.mem_cons_self, rfl⟩
  | pruning hrest => cases hrequest

end

namespace Notifier

/-!
## Runs
-/

section

variable {SecretKey PublicKey : Type} (service : PushService SecretKey PublicKey) (env : Env)
  (auth : AuthManager) (initial : Database)

/-- The run passed through a state in which a connection's handler was about to make such a
call, and made it. -/
def Made (labels : List (NotifierLabel SecretKey)) (calls : Relay -> ConnId -> Prop) : Prop :=
  exists before after s c a, labels = before ++ .relay (.resume c a) :: after ∧
    Runs service env auth initial before s ∧ calls s.relay c

/-- The subscription of a device is one of the account's: it was there from the start, or a
connection of the account's device has stored it. -/
def Stored (labels : List (NotifierLabel SecretKey)) (u d text : String) : Prop :=
  (exists row, initial.subscription? d = some row ∧ row.username = u ∧
      row.subscriptionJson = text) ∨
    Made service env auth initial labels (Relay.Subscribes env u d text)

/-- The request carries a notification of an account's desktop to a subscription of the
account. -/
def Entitled (labels : List (NotifierLabel SecretKey)) (p : PushRequest) : Prop :=
  exists u payload d text info,
    Made service env auth initial labels (Relay.Notifies u payload) ∧
    Stored service env auth initial labels u d text ∧
    service.readSubscription text = .ok info ∧
    service.Serves env info (textBytes payload.toText) p

/-- A fan-out pushes a notification of an account's desktop to subscriptions of the account. -/
def Running (labels : List (NotifierLabel SecretKey)) (t : FanOut) : Prop :=
  exists u payload, Made service env auth initial labels (Relay.Notifies u payload) ∧
    Sending (Stored service env auth initial labels u) u payload t

structure Accounted (labels : List (NotifierLabel SecretKey)) (s : Notifier) : Prop where
  relay : s.relay.Accountable env initial
  rows : forall {d row}, s.relay.database.subscription? d = some row ->
    Stored service env auth initial labels row.username d row.subscriptionJson
  fanOuts : forall {t}, t ∈ s.fanOuts -> Running service env auth initial labels t
  requests : forall {p}, p ∈ s.requests -> Entitled service env auth initial labels p

variable {service env auth initial} {labels : List (NotifierLabel SecretKey)}
  {l : NotifierLabel SecretKey} {s s' : Notifier} {calls : Relay -> ConnId -> Prop}
  {u d text : String} {p : PushRequest} {t : FanOut} {trip : RoundTrip SecretKey}

theorem Made.snoc (h : Made service env auth initial labels calls)
    (l : NotifierLabel SecretKey) : Made service env auth initial (labels ++ [l]) calls := by
  rcases h with ⟨before, after, s, c, a, hlabels, hrun, hcalls⟩
  exact ⟨before, after ++ [l], s, c, a, by simp [hlabels], hrun, hcalls⟩

theorem made_last (hrun : Runs service env auth initial labels s) {c : ConnId} {a : Ambient}
    (h : calls s.relay c) :
    Made service env auth initial (labels ++ [.relay (.resume c a)]) calls :=
  ⟨labels, [], s, c, a, rfl, hrun, h⟩

theorem Stored.snoc (h : Stored service env auth initial labels u d text)
    (l : NotifierLabel SecretKey) : Stored service env auth initial (labels ++ [l]) u d text :=
  h.imp_right fun hmade => hmade.snoc l

theorem Entitled.snoc (h : Entitled service env auth initial labels p)
    (l : NotifierLabel SecretKey) : Entitled service env auth initial (labels ++ [l]) p := by
  rcases h with ⟨u, payload, d, text, info, hmade, hstored, hserves⟩
  exact ⟨u, payload, d, text, info, hmade.snoc l, hstored.snoc l, hserves⟩

theorem Running.snoc (h : Running service env auth initial labels t)
    (l : NotifierLabel SecretKey) : Running service env auth initial (labels ++ [l]) t := by
  rcases h with ⟨u, payload, hmade, hsending⟩
  exact ⟨u, payload, hmade.snoc l, hsending.mono fun d text hstored => hstored.snoc l⟩

theorem Running.request (h : Running service env auth initial labels t)
    (hp : (t.request? service env trip).bind Except.toOption = some p) :
    Entitled service env auth initial labels p := by
  rcases h with ⟨u, payload, hmade, hsending⟩
  rcases Option.bind_eq_some_iff.mp hp with ⟨request, hrequest, hok⟩
  rcases hsending.request hrequest with ⟨d, text, hstored, rfl⟩
  cases hcase : service.request env trip text (textBytes payload.toText) with
  | error e =>
      rw [hcase] at hok
      cases hok
  | ok q =>
      rw [hcase] at hok
      cases hok
      rcases PushService.serves_of_request hcase with ⟨info, hinfo, hserves⟩
      exact ⟨u, payload, d, text, info, hmade, hstored, hinfo, hserves⟩

theorem accounted_init (hinitial : initial.Consistent) :
    Accounted service env auth initial [] (init auth initial) where
  relay := Relay.accountable_init auth hinitial
  rows := fun h => Or.inl ⟨_, h, rfl, rfl⟩
  fanOuts := fun h => by cases h
  requests := fun h => by cases h

theorem row_of_listed {db : Database} (h : (d, text) ∈ db.listPushSubscriptions u) :
    exists row, db.subscription? d = some row ∧ row.username = u ∧
      row.subscriptionJson = text := by
  rcases List.mem_map.mp h with ⟨e, he, hentry⟩
  cases hentry
  rcases List.mem_filter.mp he with ⟨hmem, husername⟩
  exact ⟨e.2, Database.subscription?_eq_some.mpr ⟨e.1, rfl, AList.mem_lookup_iff.mpr hmem⟩,
    of_decide_eq_true husername, rfl⟩

theorem accounted_relay {r : RelayLabel} (h : Accounted service env auth initial labels s)
    (hrun : Runs service env auth initial labels s) (hfresh : s.relay.GivesFreshIds initial r)
    (hstep : step service env s (.relay r) = some s') :
    Accounted service env auth initial (labels ++ [.relay r]) s' := by
  rcases Option.map_eq_some_iff.mp hstep with ⟨relay, hrelay, rfl⟩
  constructor
  · exact h.relay.step hfresh hrelay
  · intro d row hrow
    rcases Relay.row_step h.relay hfresh hrelay hrow with hold | ⟨c, a, rfl, hsubscribes⟩
    · exact (h.rows hold).snoc _
    · exact Or.inr (made_last hrun hsubscribes)
  · intro t ht
    rcases List.mem_append.mp ht with hold | hnew
    · exact (h.fanOuts hold).snoc _
    · rcases Relay.starts_step h.relay hnew with ⟨c, a, u, payload, rfl, hnotifies, rfl⟩
      exact ⟨u, payload, made_last hrun hnotifies, .started⟩
  · intro p hp
    exact (h.requests hp).snoc _

theorem accounted_resume {i : Nat} {fault : Bool}
    (h : Accounted service env auth initial labels s)
    (hstep : step service env s (.resume i fault trip) = some s') :
    Accounted service env auth initial (labels ++ [.resume i fault trip]) s' := by
  simp only [step] at hstep
  cases ht : s.fanOuts[i]? with
  | none => simp [ht] at hstep
  | some t =>
      cases hresume : t.resume fault (trip.answerTo (t.request? service env trip))
        s.relay.database with
      | none => simp [ht, hresume] at hstep
      | some next =>
          rcases next with ⟨db, t'⟩
          simp only [ht, hresume, Option.some.injEq] at hstep
          subst hstep
          have hrunning := h.fanOuts (List.mem_of_getElem? ht)
          rcases FanOut.rows_resume hresume with ⟨hrow, hdevice⟩
          constructor
          · exact h.relay.setDatabase hdevice hrow
          · intro d row hstill
            exact (h.rows (hrow d row hstill)).snoc _
          · intro f hf
            rcases List.mem_or_eq_of_mem_set hf with hold | rfl
            · exact (h.fanOuts hold).snoc _
            · rcases hrunning with ⟨u, payload, hmade, hsending⟩
              have hgoes := hsending.resume (fun d text hlisted => by
                rcases row_of_listed hlisted with ⟨row, hrow, rfl, rfl⟩
                exact h.rows hrow) hresume
              exact Running.snoc ⟨u, payload, hmade, hgoes⟩ _
          · intro p hp
            rcases List.mem_append.mp hp with hnew | hold
            · exact (hrunning.request (Option.mem_toList.mp hnew)).snoc _
            · exact (h.requests hold).snoc _

end

namespace Example

open PushCrypto.Example (Party)

def base64url (bytes : Bytes) : String :=
  let digit (n : Nat) : Char :=
    "ABCDEFGHIJKLMNOPQRSTUVWXYZabcdefghijklmnopqrstuvwxyz0123456789-_".toList.getD n '='
  let rec digits : List Nat -> List Char
    | [] => []
    | [a] => [digit (a / 4), digit (a % 4 * 16)]
    | [a, b] => [digit (a / 4), digit (a % 4 * 16 + b / 16), digit (b % 16 * 4)]
    | a :: b :: c :: rest =>
        digit (a / 4) :: digit (a % 4 * 16 + b / 16) :: digit (b % 16 * 4 + c / 64) ::
          digit (c % 64) :: digits rest
  String.ofList (digits (bytes.map UInt8.toNat))

def keys : SubscriptionKeys where
  p256dh :=
    "BCVxsr7N_eNgVRqvHtD0zTZsEc6-VV-JvLexhqUzORcxaOzi6-AYWXvTBHm4bjyPjs7Vd8pZGH6SRpkNtoIAiw4"
  auth := "BTBZMqHH6r4Tts7J_aSIgg"

def endpoint : String := "https://push.example.net/phone"

def service : PushService Party Party where
  crypto := PushCrypto.Example.crypto
  readSubscription text :=
    if text = (PushState.subscription endpoint).toText then
      .ok { endpoint := endpoint, keys := keys }
    else .error "expected value at line 1 column 1"
  encode := base64url
  decode s :=
    if s = keys.p256dh then .ok (PushCrypto.Example.point .userAgent)
    else if s = keys.auth then .ok PushCrypto.Example.authSecret
    else .error "Invalid symbol"
  sign _ := List.replicate 64 0
  subject := "mailto:relay@example.net"

def env : Env where
  crypto := Deployment.crypto
  parseUrl text :=
    if text = endpoint then some { scheme := "https", host := some "push.example.net" } else none
  publicKey := base64url (PushCrypto.Example.point .applicationServer)

def trip : RoundTrip Party where
  unix := .ok 1700000000
  asSecret := .applicationServer
  salt := PushCrypto.Example.salt
  answer := .ok 201

def notified : List (NotifierLabel Party) :=
  (Relay.deskAndPhone ++
    Deployment.turn 2
      (Deployment.message (.pushSubscribe (PushState.subscription endpoint))) 1 ++
    Deployment.turn 1
      (Deployment.message (.sessionNotification "session" "Build" "finished")) 2).map .relay ++
    [.resume 0 false trip, .resume 0 false trip]

end Example

end Notifier

end CommandRelay
