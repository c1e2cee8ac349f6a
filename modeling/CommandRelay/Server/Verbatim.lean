import CommandRelay.Server.Handlers
import CommandRelay.Server.Relay
import CommandRelay.Wire.RoundTrip

/-!
# Queries as they arrive at the desktop

The relay reads a supervisor query and writes the message it has read.  A field that the
reader ignores, and an optional field that is null, are not written again.
-/

namespace CommandRelay

open Foundation Json

/-!
## Reading and writing a query
-/

def supervisorQueryFields : List String :=
  ["type", "id", "kind", "sessionId", "text", "lastFingerprint"]

def writtenQuery (id kind : String) (session text fingerprint : Option String) :
    List (String × Json) :=
  [("type", .string "supervisor_query"), ("id", .string id), ("kind", .string kind)] ++
    optionalString "sessionId" session ++ optionalString "text" text ++
    optionalString "lastFingerprint" fingerprint

theorem toJson_supervisorQuery (id kind : String) (session text fingerprint : Option String) :
    (ControlMessage.supervisorQuery id kind session text fingerprint).toJson =
      .object (writtenQuery id kind session text fingerprint) := rfl

section

variable {intToF64 : Int -> F64} {fields : List (String × Json)} {id kind : String}
  {session text fingerprint : Option String}

theorem known_of_mem_writtenQuery {f : String × Json}
    (h : f ∈ writtenQuery id kind session text fingerprint) :
    f.1 ∈ supervisorQueryFields ∧ f.2 ≠ .null := by
  rcases f with ⟨name, value⟩
  simp only [writtenQuery, List.mem_append, List.mem_cons, List.not_mem_nil, or_false,
    optionalString, mem_optional, Option.map_eq_some_iff, Prod.mk.injEq] at h
  rcases h with (((⟨rfl, rfl⟩ | ⟨rfl, rfl⟩ | ⟨rfl, rfl⟩) | ⟨rfl, s, _, rfl⟩) | ⟨rfl, s, _, rfl⟩) |
    ⟨rfl, s, _, rfl⟩ <;>
    simp [supervisorQueryFields]

theorem valuesOf_writtenQuery
    (h : ControlMessage.ofObject intToF64 fields =
      some (.supervisorQuery id kind session text fingerprint)) :
    forall name, name ∈ supervisorQueryFields ->
      valuesOf fields name = valuesOf (writtenQuery id kind session text fingerprint) name ∨
        (valuesOf fields name = [.null] ∧
          valuesOf (writtenQuery id kind session text fingerprint) name = []) := by
  rcases ControlMessage.ofObject_supervisorQuery h with
    ⟨htype, hid, hkind, hsession, htext, hfingerprint⟩
  intro name hname
  simp only [supervisorQueryFields, List.mem_cons, List.not_mem_nil, or_false] at hname
  simp only [writtenQuery, optionalString, valuesOf_append, valuesOf_cons, valuesOf_nil,
    valuesOf_optional]
  rcases hname with rfl | rfl | rfl | rfl | rfl | rfl
  · exact Or.inl (by simp [valuesOf_stringField htype])
  · exact Or.inl (by simp [valuesOf_stringField hid])
  · exact Or.inl (by simp [valuesOf_stringField hkind])
  · simpa using valuesOf_optionalStringField hsession
  · simpa using valuesOf_optionalStringField htext
  · simpa using valuesOf_optionalStringField hfingerprint

/-- A query is written as the value it was read from exactly when it has no other fields and
no field that is null. -/
theorem same_toJson_iff
    (h : ControlMessage.ofObject intToF64 fields =
      some (.supervisorQuery id kind session text fingerprint)) :
    Same (.object fields)
        (ControlMessage.supervisorQuery id kind session text fingerprint).toJson <->
      forall f, f ∈ fields -> f.1 ∈ supervisorQueryFields ∧ f.2 ≠ .null := by
  rw [toJson_supervisorQuery]
  exact same_reread_iff (valuesOf_writtenQuery h) fun f hf => known_of_mem_writtenQuery hf

end

/-!
## Forwarding
-/

/-- Whatever text the task sends to a desktop is, as a JSON value, the object received. -/
def ForwardsVerbatim (received : List (String × Json)) (task : Handler Unit) : Prop :=
  Program.Obeys (fun _ call => forall u msg, call = .broker (.sendToDesktop u (.text msg)) ->
    Same (.object received) msg.toJson) [] task fun _ _ => True

/-- The handler of a query sends the message it was called with, and sends it once the broker
has decided to forward. -/
theorem forwardsVerbatim_handleSupervisorQuery (received : List (String × Json))
    (msg : ControlMessage) (id username deviceId : String) (c : ConnId) :
    ForwardsVerbatim received
        (Handler.handleSupervisorQuery msg id (.client username deviceId) c) <->
      Same (.object received) msg.toJson := by
  constructor
  · intro h
    exact ((h.2 true).2 .forward).1 username msg rfl
  · intro h
    constructor
    · intro u m hcall
      cases hcall
    · intro online
      cases online with
      | false => exact ⟨fun u m hcall => (by cases hcall), fun _ => trivial⟩
      | true =>
          constructor
          · intro u m hcall
            cases hcall
          · intro decision
            cases decision with
            | replay stored => exact ⟨fun u m hcall => (by cases hcall), fun _ => trivial⟩
            | reowned => trivial
            | capacity => exact ⟨fun u m hcall => (by cases hcall), fun _ => trivial⟩
            | forward =>
                constructor
                · intro u m hcall
                  cases hcall
                  exact h
                · intro _
                  trivial

theorem forwardsVerbatim_processWsMessage (env : Env) (received : List (String × Json))
    (c : ConnId) (ip username deviceId id kind : String)
    (session text fingerprint : Option String) {size : Nat} (hsize : size ≤ 16 * 1024) :
    ForwardsVerbatim received (Handler.processWsMessage env
        (.text size (some (.supervisorQuery id kind session text fingerprint)))
        (.client username deviceId) c ip) <->
      Same (.object received)
        (ControlMessage.supervisorQuery id kind session text fingerprint).toJson := by
  have hgate : ¬ maxTextMessageSize < size := Nat.not_lt.mpr hsize
  have htask : Handler.processWsMessage env
      (.text size (some (.supervisorQuery id kind session text fingerprint)))
      (.client username deviceId) c ip =
      Handler.handleSupervisorQuery (.supervisorQuery id kind session text fingerprint) id
        (.client username deviceId) c := by
    simp only [Handler.processWsMessage, if_neg hgate]
    rfl
  rw [htask]
  exact forwardsVerbatim_handleSupervisorQuery received _ id username deviceId c

/-- A supervisor query reaches the desktop as the JSON value that the client sent exactly when
the client sent none but the fields of a query, and none of them null. -/
theorem query_verbatim_iff (env : Env) (intToF64 : Int -> F64) (c : ConnId)
    (ip username deviceId : String) {received : List (String × Json)} {size : Nat}
    {id kind : String} {session text fingerprint : Option String} (hsize : size ≤ 16 * 1024)
    (hquery : ControlMessage.ofObject intToF64 received =
      some (.supervisorQuery id kind session text fingerprint)) :
    ForwardsVerbatim received (Handler.processWsMessage env
        (.text size (ControlMessage.ofObject intToF64 received)) (.client username deviceId)
          c ip) <->
      forall f, f ∈ received -> f.1 ∈ supervisorQueryFields ∧ f.2 ≠ .null := by
  rw [hquery, forwardsVerbatim_processWsMessage env received c ip username deviceId id kind
    session text fingerprint hsize]
  exact same_toJson_iff hquery

/-- Integers as floats, for the messages below: none of them has a float. -/
def noFloats (_ : Int) : F64 := ⟨"0.0"⟩

theorem query_verbatim_iff_example :
    ForwardsVerbatim
        [("type", .string "supervisor_query"), ("kind", .string "summary"), ("id", .string "q")]
        (Handler.processWsMessage Deployment.env (.text 53 (ControlMessage.ofObject noFloats
          [("type", .string "supervisor_query"), ("kind", .string "summary"),
            ("id", .string "q")])) (.client "user" "device") 1 "192.0.2.1") <->
      forall f, f ∈ [("type", Json.string "supervisor_query"), ("kind", .string "summary"),
        ("id", .string "q")] -> f.1 ∈ supervisorQueryFields ∧ f.2 ≠ .null :=
  query_verbatim_iff Deployment.env noFloats 1 "192.0.2.1" "user" "device" (by decide) rfl

/-- A query with a field that the relay does not know, as a newer client sends it. -/
def newerQuery : List (String × Json) :=
  [("type", .string "supervisor_query"), ("id", .string "q"), ("kind", .string "summary"),
    ("scope", .string "all")]

/-- The field of the newer query is lost on the way to the desktop. -/
theorem newer_query_truncated :
    (Json.object newerQuery).toText.utf8ByteSize ≤ 16 * 1024 ∧
      ControlMessage.ofObject noFloats newerQuery =
        some (.supervisorQuery "q" "summary" none none none) ∧
      ¬ ForwardsVerbatim newerQuery (Handler.processWsMessage Deployment.env
        (.text (Json.object newerQuery).toText.utf8ByteSize
          (ControlMessage.ofObject noFloats newerQuery)) (.client "user" "device") 1
        "192.0.2.1") := by
  have hgate : (Json.object newerQuery).toText.utf8ByteSize ≤ 16 * 1024 := by decide
  have hquery : ControlMessage.ofObject noFloats newerQuery =
      some (.supervisorQuery "q" "summary" none none none) := rfl
  refine ⟨hgate, hquery, fun hverbatim => ?_⟩
  rw [hquery, forwardsVerbatim_processWsMessage Deployment.env newerQuery 1 "192.0.2.1" "user"
    "device" "q" "summary" none none none hgate, same_toJson_iff hquery] at hverbatim
  have hscope := (hverbatim ("scope", .string "all") (by simp [newerQuery])).1
  revert hscope
  decide

end CommandRelay
