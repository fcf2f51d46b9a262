import RustyDns.L4Daemon.Handler

/-!
# Sending a reply

Requests and responses as `rustydnsd/src/handler.rs` sees them, and `respond`: the echoed EDNS
record, the response metadata, and the shedding of answers that a UDP datagram has no room for.
Metrics, log output and a failing send are left out.

hickory's part is a parameter (`HickoryServer`): the text of a query name, the metadata a response
starts from, and the encoded length of a response, `none` for one that does not encode. Of the
lengths it is assumed (`PartLengths.Measures`) that a response is as long as its header, question,
answers and OPT record with its options.

Results:
* `shed_fits_or_nil`: the shedding loop ends with answers that fit, or with none.
* `udp_reply_within_cap_iff`: when a UDP reply keeps its cap.
* `udp_reply_longest_prefix`: the answers of a UDP reply, for any lengths.
-/

namespace RustyDns.L4.Pipeline

open RustyDns.Lib RustyDns.L1 RustyDns.L3

/-! ## Messages -/

/-- `OpCode`: standard queries and the rest by number. -/
inductive OpCode where
  | query
  | other (code : Nat)
  deriving DecidableEq, Repr

inductive MessageType where
  | query
  | response
  deriving DecidableEq, Repr

/-- `DNSClass`: the internet class and the rest by number. -/
inductive DnsClass where
  | internet
  | other (code : Nat)
  deriving DecidableEq, Repr

/-- `Protocol`: UDP and the rest. -/
inductive Protocol where
  | udp
  | other
  deriving DecidableEq, Repr

/-- The fields of `Metadata` that the code reads or sets, and those it only copies. -/
structure Metadata where
  id : UInt16
  messageType : MessageType
  opCode : OpCode
  authoritative : Bool
  truncation : Bool
  recursionDesired : Bool
  recursionAvailable : Bool
  authenticData : Bool
  checkingDisabled : Bool
  responseCode : ResponseCode
  deriving DecidableEq, Repr

/-- An option of an OPT record, its code and its data. -/
structure EdnsOption where
  code : UInt16
  data : List UInt8
  deriving DecidableEq, Repr

structure Edns where
  version : UInt8
  maxPayload : UInt16
  dnssecOk : Bool
  options : List EdnsOption
  deriving DecidableEq, Repr

structure Query (H : Hickory) where
  name : H.Name
  queryType : RecordType
  queryClass : DnsClass

structure Request (H : Hickory) where
  src : IpAddr
  protocol : Protocol
  metadata : Metadata
  queries : List (Query H)
  edns : Option Edns

/-- `request_info`: the question, if there is exactly one. -/
def Request.info {H : Hickory} (request : Request H) : Option (Query H) :=
  match request.queries with
  | [query] => some query
  | _ => none

theorem Request.info_eq_some_iff {H : Hickory} {request : Request H} {query : Query H} :
    request.info = some query ↔ request.queries = [query] := by
  unfold Request.info
  split
  · rename_i q hq
    simp [hq]
  · rename_i hnot
    simp only [reduceCtorEq, false_iff]
    exact hnot query

theorem Request.exists_info_iff {H : Hickory} {request : Request H} :
    (∃ query, request.info = some query) ↔ request.queries.length = 1 := by
  simp only [Request.info_eq_some_iff, List.length_eq_one_iff]

/-- `MessageResponse`: the questions are those of the request, the other sections are empty. -/
structure Response (H : Hickory) where
  metadata : Metadata
  queries : List (Query H)
  answers : List (Record H.Name)
  edns : Option Edns

/-- What is taken from hickory on the way of a request. -/
structure HickoryServer (H : Hickory) where
  display : H.Name → Str
  responseFromRequest : Metadata → Metadata
  encodedLen : Response H → Option Nat

/-! ## Shedding -/

/-- The loop that pops answers until the rest fits; it looks at the reversed list. -/
def shedFrom {α : Type} (fits : List α → Bool) : List α → List α
  | [] => []
  | a :: rest => if fits (a :: rest).reverse then (a :: rest).reverse else shedFrom fits rest

def shed {α : Type} (fits : List α → Bool) (answers : List α) : List α :=
  shedFrom fits answers.reverse

/-! ## The response -/

/-- `MAX_EDNS_PAYLOAD`. -/
def maxEdnsPayload : UInt16 := 4096

/-- The EDNS record of the response: the request's, with a smaller payload and version 0. -/
def normalizedEdns (edns : Edns) : Edns :=
  { edns with
    maxPayload := if maxEdnsPayload < edns.maxPayload then maxEdnsPayload else edns.maxPayload
    version := 0 }

/-- The datagram cap of a request. -/
def udpCap (edns : Option Edns) : Nat :=
  match edns with
  | some e => max 512 (min e.maxPayload.toNat maxEdnsPayload.toNat)
  | none => 512

section
variable {H : Hickory} (S : HickoryServer H)

def responseMetadata (request : Request H) (code : ResponseCode) (authoritative : Bool) :
    Metadata :=
  { S.responseFromRequest request.metadata with
    responseCode := code
    authoritative := authoritative
    recursionAvailable := true }

/-- A response with these answers and this truncation flag. -/
def buildResponse (request : Request H) (metadata : Metadata) (truncation : Bool)
    (answers : List (Record H.Name)) : Response H where
  metadata := { metadata with truncation }
  queries := request.queries
  answers := answers
  edns := request.edns.map normalizedEdns

/-- `measure_now(..).is_none_or(|n| n > cap)`, negated. -/
def fitsCap (request : Request H) (metadata : Metadata) (truncation : Bool)
    (answers : List (Record H.Name)) : Bool :=
  match S.encodedLen (buildResponse request metadata truncation answers) with
  | some n => n ≤ udpCap request.edns
  | none => false

/-- mirrors crates/rustydnsd/src/handler.rs:336-470 -/
def respond (request : Request H) (code : ResponseCode) (authoritative : Bool)
    (answers : List (Record H.Name)) : Response H :=
  let metadata := responseMetadata S request code authoritative
  if request.protocol = .udp ∧ ¬ fitsCap S request metadata false answers then
    buildResponse request metadata true (shed (fitsCap S request metadata true) answers)
  else
    { metadata
      queries := request.queries
      answers := answers
      edns := request.edns.map normalizedEdns }

end

/-! ## Encoded lengths -/

/-- The header of a message. -/
def headerLen : Nat := 12

/-- An OPT record: eleven bytes, and each option with its code and length. -/
def optLen (edns : Option Edns) : Nat :=
  match edns with
  | none => 0
  | some e => 11 + (e.options.map fun o => 4 + o.data.length).sum

/-- Encoded lengths of the parts of a message. Answers share names with the question and with each
other, so their length is one of the whole list. -/
structure PartLengths (H : Hickory) where
  questionLen : Query H → Nat
  answersLen : List (Query H) → List (Record H.Name) → Option Nat
  answersLen_nil : ∀ queries, answersLen queries [] = some 0

namespace PartLengths

variable {H : Hickory} (P : PartLengths H)

/-- The length of a response without answers. -/
def bareLen (queries : List (Query H)) (edns : Option Edns) : Nat :=
  headerLen + (queries.map P.questionLen).sum + optLen edns

/-- What is assumed of the encoder: a response is as long as its parts. -/
def Measures (S : HickoryServer H) : Prop :=
  ∀ r : Response H, S.encodedLen r =
    (P.answersLen r.queries r.answers).map (P.bareLen r.queries r.edns + ·)

end PartLengths

@[simp] theorem optLen_map_normalizedEdns (edns : Option Edns) :
    optLen (edns.map normalizedEdns) = optLen edns := by
  cases edns <;> rfl

/-- The loop ends with answers that fit, or with none. -/
theorem shed_fits_or_nil {α : Type} (fits : List α → Bool) (answers : List α) :
    shed fits answers = [] ∨ fits (shed fits answers) = true := by
  unfold shed
  induction answers.reverse with
  | nil => exact .inl rfl
  | cons a rest ih =>
    unfold shedFrom
    split
    · rename_i hfits
      exact .inr hfits
    · exact ih

section
variable {H : Hickory} {S : HickoryServer H} {P : PartLengths H} {request : Request H}

theorem encodedLen_eq (hS : P.Measures S) (metadata : Metadata) (answers : List (Record H.Name)) :
    S.encodedLen ⟨metadata, request.queries, answers, request.edns.map normalizedEdns⟩ =
      (P.answersLen request.queries answers).map
        (P.bareLen request.queries request.edns + ·) := by
  rw [hS]
  simp only [PartLengths.bareLen, optLen_map_normalizedEdns]

theorem fitsCap_iff {metadata : Metadata} {truncation : Bool} {answers : List (Record H.Name)} :
    fitsCap S request metadata truncation answers = true ↔
      ∃ n, S.encodedLen (buildResponse request metadata truncation answers) = some n ∧
        n ≤ udpCap request.edns := by
  unfold fitsCap
  split
  · rename_i n hn
    simp [hn]
  · rename_i hn
    simp [hn]

/-- Whatever is sent, it holds the question and the echoed OPT record. -/
theorem respond_parts (S : HickoryServer H) (request : Request H) (code : ResponseCode)
    (authoritative : Bool) (answers : List (Record H.Name)) :
    ∃ metadata sent, respond S request code authoritative answers =
      ⟨metadata, request.queries, sent, request.edns.map normalizedEdns⟩ := by
  unfold respond
  dsimp only
  split
  · exact ⟨_, _, rfl⟩
  · exact ⟨_, _, rfl⟩

/-- With room for the question and the OPT record, what is sent fits. -/
theorem respond_fits (hS : P.Measures S) (hudp : request.protocol = .udp) (code : ResponseCode)
    (authoritative : Bool) (answers : List (Record H.Name))
    (hbare : P.bareLen request.queries request.edns ≤ udpCap request.edns) :
    ∃ n, S.encodedLen (respond S request code authoritative answers) = some n ∧
      n ≤ udpCap request.edns := by
  unfold respond
  simp only [hudp, true_and]
  split
  · -- answers are shed: the rest fits, or the bare response is left
    rcases shed_fits_or_nil
      (fitsCap S request (responseMetadata S request code authoritative) true) answers with hnil | hfits
    · refine ⟨P.bareLen request.queries request.edns, ?_, hbare⟩
      rw [hnil]
      refine (encodedLen_eq hS _ []).trans ?_
      rw [P.answersLen_nil]
      rfl
    · exact fitsCap_iff.1 hfits
  · rename_i hfits
    rw [not_not] at hfits
    obtain ⟨n, hn, hle⟩ := fitsCap_iff.1 hfits
    refine ⟨n, ?_, hle⟩
    -- the probe clears the truncation flag, which has no length of its own
    rw [← hn]
    exact (encodedLen_eq hS _ answers).trans (encodedLen_eq hS _ answers).symm

end

/-- **When a UDP reply keeps its cap.** The reply to a UDP request encodes within the cap exactly if
header, question and the echoed OPT record do: answers are shed, options are not. -/
theorem udp_reply_within_cap_iff (H : Hickory) (S : HickoryServer H) (P : PartLengths H)
    (hS : P.Measures S) (request : Request H) (hudp : request.protocol = .udp)
    (code : ResponseCode) (authoritative : Bool) (answers : List (Record H.Name)) :
    (∃ n, S.encodedLen (respond S request code authoritative answers) = some n ∧
      n ≤ udpCap request.edns) ↔
    P.bareLen request.queries request.edns ≤ udpCap request.edns := by
  constructor
  · rintro ⟨n, hn, hle⟩
    obtain ⟨metadata, sent, hsent⟩ := respond_parts S request code authoritative answers
    rw [hsent, encodedLen_eq hS, Option.map_eq_some_iff] at hn
    obtain ⟨k, -, rfl⟩ := hn
    omega
  · exact respond_fits hS hudp code authoritative answers

/-! ## What is shed -/

/-- `kept` is the longest prefix of a list that fits, or empty if no prefix fits. -/
def LongestFitting {α : Type} (fits : List α → Prop) (l kept : List α) : Prop :=
  (kept <+: l ∧ fits kept ∧ ∀ p, p <+: l → fits p → p.length ≤ kept.length) ∨
    (kept = [] ∧ ∀ p, p <+: l → ¬ fits p)

/-- If the whole list does not fit, its last element plays no part. -/
theorem LongestFitting.concat_of_not_fits {α : Type} {fits : List α → Prop} {l kept : List α}
    {a : α} (hnot : ¬ fits (l ++ [a])) (h : LongestFitting fits l kept) :
    LongestFitting fits (l ++ [a]) kept := by
  have hshorter : ∀ p, p <+: l ++ [a] → fits p → p <+: l := by
    intro p hp hfits
    rcases List.prefix_concat_iff.1 hp with rfl | hp
    · exact absurd hfits hnot
    · exact hp
  rcases h with ⟨hkept, hfits, hlongest⟩ | ⟨hnil, hnone⟩
  · refine .inl ⟨hkept.trans (List.prefix_append l [a]), hfits, fun p hp hpfits => ?_⟩
    exact hlongest p (hshorter p hp hpfits) hpfits
  · exact .inr ⟨hnil, fun p hp hpfits => hnone p (hshorter p hp hpfits) hpfits⟩

/-- The loop goes through the prefixes from the longest down. Lengths may do what they like. -/
theorem longestFitting_shed {α : Type} (fits : List α → Bool) (answers : List α) :
    LongestFitting (fun p => fits p = true) answers (shed fits answers) := by
  induction answers using List.reverseRecOn with
  | nil =>
    -- the loop does not measure the empty list
    by_cases hfits : fits [] = true
    · exact .inl ⟨List.prefix_rfl, hfits, fun p hp _ => hp.length_le⟩
    · refine .inr ⟨rfl, fun p hp => ?_⟩
      rwa [List.prefix_nil.1 hp]
  | append_singleton answers a ih =>
    have hstep : shed fits (answers ++ [a]) =
        if fits (answers ++ [a]) = true then answers ++ [a] else shed fits answers := by
      simp [shed, shedFrom]
    rw [hstep]
    split
    · rename_i hfits
      exact .inl ⟨List.prefix_rfl, hfits, fun p hp _ => hp.length_le⟩
    · rename_i hnot
      exact ih.concat_of_not_fits hnot

section
variable {H : Hickory} {S : HickoryServer H} {request : Request H} {code : ResponseCode}
  {authoritative : Bool}

/-- The reply to a request with these answers and this truncation flag. -/
def reply (S : HickoryServer H) (request : Request H) (code : ResponseCode) (authoritative : Bool)
    (truncation : Bool) (answers : List (Record H.Name)) : Response H :=
  buildResponse request (responseMetadata S request code authoritative) truncation answers

/-- The response encodes within the cap of the request. -/
def Encodes (S : HickoryServer H) (request : Request H) (r : Response H) : Prop :=
  ∃ n, S.encodedLen r = some n ∧ n ≤ udpCap request.edns

/-- What is sent over UDP: all answers, or flagged what the loop leaves. -/
theorem respond_udp (hudp : request.protocol = .udp)
    (hclear : (S.responseFromRequest request.metadata).truncation = false)
    (answers : List (Record H.Name)) :
    respond S request code authoritative answers =
      if fitsCap S request (responseMetadata S request code authoritative) false answers then
        reply S request code authoritative false answers
      else reply S request code authoritative true
        (shed (fitsCap S request (responseMetadata S request code authoritative) true) answers) := by
  have hmetadata : { responseMetadata S request code authoritative with truncation := false } =
      responseMetadata S request code authoritative := by
    simp only [responseMetadata, hclear]
  unfold respond
  simp only [hudp, true_and, ite_not]
  split
  · rw [reply, buildResponse, hmetadata]
  · rfl

end

/-- **Truncation keeps the longest fitting prefix.** For every encoder, the reply to a UDP request
has the TC flag exactly when the reply with all answers does not encode within the cap. Without the
flag it is that reply; with the flag its answers are the longest prefix whose flagged reply encodes
within the cap, or none if there is no such prefix. -/
theorem udp_reply_longest_prefix {H : Hickory} (S : HickoryServer H) (request : Request H)
    (hudp : request.protocol = .udp)
    (hclear : (S.responseFromRequest request.metadata).truncation = false) (code : ResponseCode)
    (authoritative : Bool) (answers : List (Record H.Name)) :
    let sent := respond S request code authoritative answers
    (sent.metadata.truncation = true ↔
      ¬ Encodes S request (reply S request code authoritative false answers)) ∧
    (sent.metadata.truncation = false → sent = reply S request code authoritative false answers) ∧
    (sent.metadata.truncation = true →
      sent = reply S request code authoritative true sent.answers ∧
      LongestFitting (fun p => Encodes S request (reply S request code authoritative true p))
        answers sent.answers) := by
  intro sent
  have hsent : sent = _ := respond_udp hudp hclear answers
  have hfull : Encodes S request (reply S request code authoritative false answers) ↔
      fitsCap S request (responseMetadata S request code authoritative) false answers = true :=
    fitsCap_iff.symm
  rw [hsent, hfull]
  split
  · rename_i hfits
    refine ⟨by simp [reply, buildResponse, hfits], fun _ => rfl, fun h => ?_⟩
    cases h
  · rename_i hnot
    refine ⟨by simp [reply, buildResponse, hnot], fun h => (by cases h), fun _ => ⟨rfl, ?_⟩⟩
    have hloop := longestFitting_shed
      (fitsCap S request (responseMetadata S request code authoritative) true) answers
    simp only [fitsCap_iff] at hloop
    exact hloop

/-- Lengths without name compression, on names that are their own text. -/
def plainLengths : PartLengths textNames where
  questionLen q := q.name.length + 5
  answersLen _ answers := some (answers.map fun r => r.name.length + 15).sum
  answersLen_nil _ := rfl

/-- A server with these lengths. -/
def plainServer : HickoryServer textNames where
  display := id
  responseFromRequest m := { m with messageType := .response }
  encodedLen r := (plainLengths.answersLen r.queries r.answers).map
    (plainLengths.bareLen r.queries r.edns + ·)

/-- A standard query for `a.b.` over UDP. -/
def plainRequest (edns : Option Edns) : Request textNames where
  src := .v4 (.ofOctets 10 0 0 9)
  protocol := .udp
  metadata :=
    { id := 7, messageType := .query, opCode := .query, authoritative := false
      truncation := false, recursionDesired := true, recursionAvailable := false
      authenticData := false, checkingDisabled := false, responseCode := .noError }
  queries := [{ name := "a.b.".toList, queryType := .a, queryClass := .internet }]
  edns := edns

/-- A payload of 512 bytes, and a padding option of 600 bytes. -/
def paddedEdns : Edns where
  version := 0
  maxPayload := 512
  dnssecOk := false
  options := [{ code := 12, data := List.replicate 600 0 }]

/-- The padding of the request comes back: 636 bytes in a reply with a cap of 512. -/
theorem echoed_padding_exceeds_cap :
    plainLengths.Measures plainServer ∧
    plainServer.encodedLen (respond plainServer (plainRequest (some paddedEdns)) .nxDomain false [])
      = some 636 ∧
    udpCap (plainRequest (some paddedEdns)).edns = 512 :=
  ⟨fun _ => rfl, by decide +kernel, by decide +kernel⟩

/-- Two answers of which one has to go. -/
def twoAnswers : List (Record textNames.Name) :=
  [{ name := List.replicate 250 'a', ttl := 60, data := .a (.ofOctets 1 2 3 4) },
   { name := List.replicate 250 'a', ttl := 60, data := .a (.ofOctets 1 2 3 5) }]

theorem udp_reply_within_cap_iff_two_answers :
    (respond plainServer (plainRequest none) .noError false twoAnswers).answers.length = 1 ∧
    ∃ n, plainServer.encodedLen (respond plainServer (plainRequest none) .noError false twoAnswers)
      = some n ∧ n ≤ udpCap (plainRequest none).edns :=
  ⟨by decide +kernel,
    (udp_reply_within_cap_iff textNames plainServer plainLengths (fun _ => rfl) (plainRequest none)
      rfl .noError false twoAnswers).2 (by decide +kernel)⟩

/-- One of two answers has to go: the reply is flagged, and one is the most that fits. -/
theorem udp_reply_longest_prefix_two_answers :
    (respond plainServer (plainRequest none) .noError false twoAnswers).metadata.truncation = true ∧
    (respond plainServer (plainRequest none) .noError false twoAnswers).answers.length = 1 ∧
    LongestFitting (fun p => Encodes plainServer (plainRequest none)
      (reply plainServer (plainRequest none) .noError false true p)) twoAnswers
      (respond plainServer (plainRequest none) .noError false twoAnswers).answers := by
  have hflag : (respond plainServer (plainRequest none) .noError false twoAnswers).metadata.truncation
      = true := by decide +kernel
  have hone : (respond plainServer (plainRequest none) .noError false twoAnswers).answers.length
      = 1 := by decide +kernel
  obtain ⟨-, -, hcut⟩ := udp_reply_longest_prefix plainServer (plainRequest none) rfl rfl
    .noError false twoAnswers
  exact ⟨hflag, hone, (hcut hflag).2⟩

end RustyDns.L4.Pipeline
