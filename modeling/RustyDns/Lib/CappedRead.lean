import RustyDns.Lib.Checks

/-!
# Reading a body under a cap

An HTTP body arrives in chunks, and the transfer may fail at any of them. `readUnder` is the usual
defence against a peer that sends too much: a declared length over the cap is refused before
anything is read, and the loop stops at the first chunk that would take the body over the cap.

Results:
* `readUnder_ok_iff`: a body is accepted exactly if it is all there, fits, and was not declared to be
  longer; how it was cut into chunks does not matter.
* `readUnder_parts`: a body of which some chunks were taken is as far as the loop is after them.
-/

namespace RustyDns.Lib.CappedRead

variable {ε α : Type}

/-- The loop over the chunks, `body` being what it has so far. -/
def drain (cap : Nat) (tooLong : ε) (body : List α) : List (Except ε (List α)) → Except ε (List α)
  | [] => .ok body
  | .error e :: _ => .error e
  | .ok chunk :: rest =>
    if cap < body.length + chunk.length then .error tooLong
    else drain cap tooLong (body ++ chunk) rest

theorem drain_ok_iff {cap : Nat} {tooLong : ε} {chunks : List (Except ε (List α))} {out : List α} :
    ∀ {body : List α}, body.length ≤ cap →
      (drain cap tooLong body chunks = .ok out ↔
        ∃ parts : List (List α), chunks = parts.map .ok ∧ out = body ++ parts.flatten ∧ out.length ≤ cap) := by
  induction chunks with
  | nil =>
    intro body hbody
    constructor
    · intro h
      cases h
      exact ⟨[], rfl, by simp, hbody⟩
    · rintro ⟨parts, hparts, rfl, -⟩
      obtain rfl : parts = [] := by simpa using hparts.symm
      simp [drain]
  | cons chunk rest ih =>
    intro body hbody
    cases chunk with
    | error e =>
      simp only [drain, reduceCtorEq, false_iff, not_exists, not_and]
      intro parts hparts
      cases parts <;> simp at hparts
    | ok chunk =>
      simp only [drain]
      split
      · rename_i hover
        simp only [reduceCtorEq, false_iff, not_exists, not_and]
        intro parts hparts hout
        cases parts with
        | nil => simp at hparts
        | cons part parts =>
          simp only [List.map_cons, List.cons.injEq, Except.ok.injEq] at hparts
          simp only [hout, ← hparts.1, List.flatten_cons, List.length_append]
          omega
      · rename_i hfits
        rw [ih (by rw [List.length_append]; omega)]
        constructor
        · rintro ⟨parts, rfl, rfl, hlen⟩
          exact ⟨chunk :: parts, rfl, by simp, hlen⟩
        · rintro ⟨parts, hparts, hout, hlen⟩
          cases parts with
          | nil => simp at hparts
          | cons part parts =>
            simp only [List.map_cons, List.cons.injEq, Except.ok.injEq] at hparts
            obtain ⟨rfl, rfl⟩ := hparts
            exact ⟨parts, rfl, by simpa using hout, hlen⟩

/-- Chunks that fit are taken one after another. -/
theorem drain_parts {cap : Nat} {tooLong : ε} {rest : List (Except ε (List α))} :
    ∀ {parts : List (List α)} {body : List α}, (body ++ parts.flatten).length ≤ cap →
      drain cap tooLong body (parts.map .ok ++ rest) =
        drain cap tooLong (body ++ parts.flatten) rest
  | [], body, _ => by simp
  | part :: parts, body, hfits => by
    rw [List.flatten_cons, ← List.append_assoc] at hfits ⊢
    have hpart : ¬ cap < body.length + part.length := by
      rw [List.length_append, List.length_append] at hfits
      omega
    rw [List.map_cons, List.cons_append, drain, if_neg hpart, drain_parts hfits]

/-! ## Responses -/

/-- A response as an HTTP client hands it over: the headers that count, and the body as it comes. -/
structure HttpResponse where
  status : Nat
  contentLength : Option Nat
  chunks : List (Except (List Char) (List UInt8))

def HttpResponse.isSuccess (r : HttpResponse) : Bool := decide (200 ≤ r.status ∧ r.status < 300)

/-- The texts of the errors of a capped read. -/
structure ReadErrors (ε : Type) where
  declared : Nat → ε
  tooLong : ε
  broken : List Char → ε

/-- The declared length is looked at first, then the body is drained. -/
def readUnder (cap : Nat) (errors : ReadErrors ε) (r : HttpResponse) : Except ε (List UInt8) :=
  match r.contentLength.filter (cap < ·) with
  | some n => .error (errors.declared n)
  | none => drain cap errors.tooLong [] (r.chunks.map fun c => c.mapError errors.broken)

/-- The head was accepted and `parts` were taken; the loop goes on with what comes after them. -/
theorem readUnder_parts {cap : Nat} {errors : ReadErrors ε} {status : Nat}
    {contentLength : Option Nat} {parts : List (List UInt8)}
    {rest : List (Except (List Char) (List UInt8))} (hdeclared : contentLength.filter (cap < ·) = none)
    (hfits : parts.flatten.length ≤ cap) :
    readUnder cap errors ⟨status, contentLength, parts.map .ok ++ rest⟩ =
      drain cap errors.tooLong parts.flatten (rest.map fun c => c.mapError errors.broken) := by
  have hmap : (parts.map Except.ok).map (fun c => c.mapError errors.broken) = parts.map .ok := by
    rw [List.map_map]
    rfl
  rw [readUnder, hdeclared, List.map_append, hmap]
  exact drain_parts hfits

/-- The body of `r` came through and is `body`. -/
def HttpResponse.Delivers (r : HttpResponse) (body : List UInt8) : Prop :=
  ∃ parts : List (List UInt8), r.chunks = parts.map .ok ∧ body = parts.flatten

theorem map_mapError_eq_map_ok {ε' : Type} {f : ε → ε'} {chunks : List (Except ε (List α))}
    {parts : List (List α)} :
    chunks.map (fun c => c.mapError f) = parts.map .ok ↔ chunks = parts.map .ok := by
  induction chunks generalizing parts with
  | nil => simp
  | cons c cs ih =>
    cases parts with
    | nil => simp
    | cons p ps => simp only [List.map_cons, List.cons.injEq, Checks.mapError_ok_iff, ih]

theorem readUnder_ok_iff {cap : Nat} {errors : ReadErrors ε} {r : HttpResponse}
    {body : List UInt8} :
    readUnder cap errors r = .ok body ↔
      (∀ n, r.contentLength = some n → n ≤ cap) ∧ r.Delivers body ∧ body.length ≤ cap := by
  unfold readUnder
  cases hfilter : r.contentLength.filter (cap < ·) with
  | some n =>
    simp only [Option.filter_eq_some_iff, decide_eq_true_eq] at hfilter
    simp only [reduceCtorEq, false_iff, not_and]
    intro hdeclared
    have := hdeclared n hfilter.1
    omega
  | none =>
    simp only [Option.filter_eq_none_iff, decide_eq_true_eq, not_lt] at hfilter
    rw [drain_ok_iff (Nat.zero_le cap)]
    simp only [map_mapError_eq_map_ok, List.nil_append, HttpResponse.Delivers]
    constructor
    · rintro ⟨parts, hparts, hbody, hlen⟩
      exact ⟨fun n hn => hfilter n hn, ⟨parts, hparts, hbody⟩, hlen⟩
    · rintro ⟨-, ⟨parts, hparts, hbody⟩, hlen⟩
      exact ⟨parts, hparts, hbody, hlen⟩

end RustyDns.Lib.CappedRead
