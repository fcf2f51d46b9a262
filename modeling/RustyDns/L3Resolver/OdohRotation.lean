import RustyDns.L3Resolver.Odoh

/-!
# Key rotation

A target changes its key whenever it likes, and the arm finds out by a query that is turned down.
Here the target and the relays are taken to be honest (`Honest`): the published config is that of the
current key, a query under it is answered, and a query under an older one is answered too or turned
down as stale. Exchanges run one after another, and the key does not change within one.

Each config request and each repeated query is paid for by a rotation: `unfetched` and `stale` are
what is still to be paid for in a world.

Results:
* `exchange_honest`: one exchange is answered, at a cost the two potentials account for.
* `rotation_cost`: whole runs with any number of rotations.
-/

namespace RustyDns.L3.Odoh

open RustyDns.Lib RustyDns.Lib.CappedRead

variable {t : OdohTransport} {O : OdohRs} {N : Network O}

/-- The target `i` and the relays behave. `key` is the config of the current key, `answer` what the
target answers. -/
structure Honest (t : OdohTransport) (i : Fin t.targets.length) (N : Network O)
    (key : N.State → O.Config) (answer : List UInt8 → List UInt8) : Prop where
  seals : ∀ plain c seed, ∃ body secret, sealQuery O plain c (.ok seed) = .ok (body, secret)
  entropy : ∀ s, (∃ seed, (N.entropy s).1 = .ok seed) ∧ key (N.entropy s).2 = key s
  random : ∀ s, key (N.random s).2 = key s
  get : ∀ s, ConfigIn O (N.get (t.targets.get i).configsUrl s).1 = .ok (key s) ∧
    key (N.get (t.targets.get i).configsUrl s).2 = key s
  post : ∀ s, ∀ proxy ∈ t.proxyUrls, ∀ plain c seed body secret,
    sealQuery O plain c seed = .ok (body, secret) →
    let reply := N.post ((t.targets.get i).via proxy body) s
    key reply.2 = key s ∧
      (judge O plain secret (replyReceived reply.1) = .answer (answer plain.dnsMsg) ∨
        c ≠ key s ∧ ∃ e, judge O plain secret (replyReceived reply.1) = .staleKey e)

def World.gets (w : World t N) : Nat := w.calls.countP Call.isGet

def World.posts (w : World t N) : Nat := w.calls.countP Call.isPost

section
variable {key : N.State → O.Config} {answer : List UInt8 → List UInt8} {i : Fin t.targets.length}

theorem configFor_honest (h : Honest t i N key answer) (w : World t N) :
    ∃ c w₁, configFor i w = (.ok c, w₁) ∧ w₁.config i = some c ∧ key w₁.net = key w.net ∧
      w₁.posts = w.posts ∧ (w.config i = some c ∧ w₁.gets = w.gets ∨
        w.config i = none ∧ c = key w.net ∧ w₁.gets = w.gets + 1) := by
  cases hcell : w.config i with
  | some c => exact ⟨c, w, configFor_cached hcell, hcell, rfl, rfl, .inl ⟨rfl, rfl⟩⟩
  | none =>
    obtain ⟨hreply, hkey⟩ := h.get w.net
    refine ⟨_, _, configFor_ok hcell hreply, Function.update_self _ _ _, hkey, ?_,
      .inr ⟨rfl, rfl, ?_⟩⟩
    · simp [World.posts, World.store, World.asked, List.countP_append, Call.isPost]
    · simp [World.gets, World.store, World.asked, List.countP_append, Call.isGet]

/-- An attempt sends the query once. It is answered, or it was sent under an older config. -/
theorem attempt_honest (h : Honest t i N key answer) {proxy : Str} (hproxy : proxy ∈ t.proxyUrls)
    (plain : Plaintext) (w : World t N) :
    ∃ c verdict w', attempt proxy i plain w = (.ok verdict, w') ∧ w'.config i = some c ∧
      key w'.net = key w.net ∧ w'.posts = w.posts + 1 ∧
      (w.config i = some c ∧ w'.gets = w.gets ∨
        w.config i = none ∧ c = key w.net ∧ w'.gets = w.gets + 1) ∧
      (verdict = .answer (answer plain.dnsMsg) ∨ c ≠ key w.net ∧ ∃ e, verdict = .staleKey e) := by
  obtain ⟨c, w₁, hconfig, hcell, hkey, hposts, hfetch⟩ := configFor_honest h w
  obtain ⟨⟨seed, hseed⟩, hkey₂⟩ := h.entropy w₁.net
  obtain ⟨body, secret, hseal⟩ := h.seals plain c seed
  rw [← hseed] at hseal
  obtain ⟨hkey₃, hverdict⟩ := h.post (N.entropy w₁.net).2 proxy hproxy plain c _ body secret hseal
  rw [hkey₂, hkey] at hkey₃ hverdict
  refine ⟨c, _, _, attempt_posted hconfig hseal, hcell, hkey₃, ?_, ?_, hverdict⟩
  · rw [← hposts]
    simp [World.posts, World.relayed, List.countP_append, Call.isPost]
  · have hgets : (w₁.relayed ((t.targets.get i).via proxy body)).gets = w₁.gets := by
      simp [World.gets, World.relayed, List.countP_append, Call.isGet]
    rw [hgets]
    exact hfetch

/-! ## The potentials -/

variable [DecidableEq O.Config]

/-- One config request is still to be made for the current key. -/
def unfetched (key : N.State → O.Config) (i : Fin t.targets.length) (w : World t N) : Nat :=
  if w.config i = some (key w.net) then 0 else 1

/-- One query is still to be turned down because of an older key. -/
def stale (key : N.State → O.Config) (i : Fin t.targets.length) (w : World t N) : Nat :=
  if w.config i = none ∨ w.config i = some (key w.net) then 0 else 1

omit [DecidableEq O.Config] in
theorem select_key (h : Honest t i N key answer) {α : Type} {l : List α} (hne : l ≠ [])
    (w : World t N) : key (select l hne w).2.net = key w.net := by
  unfold select
  split
  · exact h.random w.net
  · rfl

/-- The loop of an exchange is answered. It makes a config request only if one was due, and sends its
query twice only if it had an older key. -/
theorem exchangeFrom_honest (h : Honest t i N key answer) {proxy : Str}
    (hproxy : proxy ∈ t.proxyUrls) (plain : Plaintext) (w : World t N) :
    ∃ w', exchangeFrom proxy i plain 1 w = (.ok (answer plain.dnsMsg), w') ∧
      key w'.net = key w.net ∧ w'.gets + unfetched key i w' ≤ w.gets + unfetched key i w ∧
      w'.posts + stale key i w' ≤ w.posts + 1 + stale key i w := by
  obtain ⟨c, verdict, w₁, hattempt, hcell, hkey, hposts, hfetch, hverdict⟩ :=
    attempt_honest h hproxy plain w
  rcases hverdict with rfl | ⟨hne, e, rfl⟩
  · refine ⟨w₁, ?_, hkey, ?_, ?_⟩
    · rw [exchangeFrom_settled (by simp [hattempt]), hattempt]
      rfl
    · rcases hfetch with ⟨hc, hgets⟩ | ⟨hc, rfl, hgets⟩
      · simp [unfetched, hcell, hc, hkey, hgets]
      · simp [unfetched, hcell, hc, hkey, hgets]
    · rcases hfetch with ⟨hc, -⟩ | ⟨hc, rfl, -⟩
      · simp [stale, hcell, hc, hkey, hposts]
      · simp [stale, hcell, hc, hkey, hposts]
  · -- the query went out under an older key, so the next turn fetches the current one
    obtain ⟨hc, hgets⟩ : w.config i = some c ∧ w₁.gets = w.gets := by
      rcases hfetch with hold | ⟨-, rfl, -⟩
      · exact hold
      · exact absurd rfl hne
    let cleared := w₁.store i none
    have hnone : cleared.config i = none := by simp [cleared, World.store]
    obtain ⟨c', verdict, w', hattempt', hcell', hkey', hposts', hfetch', hverdict'⟩ :=
      attempt_honest h hproxy plain cleared
    obtain ⟨rfl, hgets'⟩ : c' = key cleared.net ∧ w'.gets = cleared.gets + 1 := by
      rcases hfetch' with ⟨hcached, -⟩ | ⟨-, hfetched⟩
      · rw [hnone] at hcached
        cases hcached
      · exact hfetched
    have hanswer : verdict = .answer (answer plain.dnsMsg) := by
      rcases hverdict' with hanswer | ⟨hself, -⟩
      · exact hanswer
      · exact absurd rfl hself
    have hkeys : key w'.net = key w.net := hkey'.trans hkey
    have hcurrent : w'.config i = some (key w'.net) := by rw [hcell', hkey']
    refine ⟨w', ?_, hkeys, ?_, ?_⟩
    · rw [exchangeFrom_stale (by rw [hattempt]), hattempt, exchangeFrom_settled]
      · simp only [cleared] at hattempt'
        rw [hattempt', hanswer]
        rfl
      · simp only [cleared] at hattempt'
        simp [hattempt', hanswer]
    · have hcleared : cleared.gets = w₁.gets := rfl
      have hdue : unfetched key i w = 1 := by simp [unfetched, hc, hne]
      simp only [unfetched, hcurrent, if_true] at hdue ⊢
      omega
    · have hcleared : cleared.posts = w₁.posts := rfl
      have hdue : stale key i w = 1 := by simp [stale, hc, hne]
      simp only [stale, hcurrent, or_true, if_true] at hdue ⊢
      omega

theorem exchange_honest (h : Honest t i N key answer) (queryWire : List UInt8) (w : World t N) :
    ∃ w', exchange i queryWire w = (.ok (answer queryWire), w') ∧ key w'.net = key w.net ∧
      w'.gets + unfetched key i w' ≤ w.gets + unfetched key i w ∧
      w'.posts + stale key i w' ≤ w.posts + 1 + stale key i w := by
  obtain ⟨hcalls, hconfig⟩ := select_calls (N := N) t.proxyUrls_ne w
  have hkey := select_key h t.proxyUrls_ne w
  obtain ⟨w', hrun, hkey', hgets, hposts⟩ := exchangeFrom_honest h
    (List.get_mem t.proxyUrls (select t.proxyUrls t.proxyUrls_ne w).1) (plaintext t queryWire)
    (select t.proxyUrls t.proxyUrls_ne w).2
  refine ⟨w', hrun, hkey'.trans hkey, ?_, ?_⟩
  · simpa only [unfetched, World.gets, hcalls, hconfig, hkey] using hgets
  · simpa only [stale, World.posts, hcalls, hconfig, hkey] using hposts

end

/-! ## Runs -/

/-- What happens to an arm: queries, and changes at the target. -/
inductive Event (N : Network O) where
  | query (queryWire : List UInt8)
  | rotate (net : N.State)

def Event.wire? : Event N → Option (List UInt8)
  | .query queryWire => some queryWire
  | .rotate _ => none

def rotations (events : List (Event N)) : Nat := events.countP fun e => e.wire?.isNone

/-- The results of the queries of a run. -/
def serve (i : Fin t.targets.length) : List (Event N) → M t N (List (Except OdohError (List UInt8)))
  | [] => pure []
  | .query queryWire :: events => do
    let r ← exchange i queryWire
    let rs ← serve i events
    pure (r :: rs)
  | .rotate net :: events => do
    modify fun w => { w with net }
    serve i events

section
variable {key : N.State → O.Config} {answer : List UInt8 → List UInt8} {i : Fin t.targets.length}
  [DecidableEq O.Config]

theorem unfetched_le (w : World t N) : unfetched key i w ≤ 1 := by
  unfold unfetched
  split <;> omega

theorem stale_le (w : World t N) : stale key i w ≤ 1 := by
  unfold stale
  split <;> omega

theorem serve_honest (h : Honest t i N key answer) (events : List (Event N)) :
    ∀ w : World t N,
      (serve i events w).1 = (events.filterMap Event.wire?).map (fun q => .ok (answer q)) ∧
      (serve i events w).2.gets + unfetched key i (serve i events w).2 ≤
        w.gets + unfetched key i w + rotations events ∧
      (serve i events w).2.posts + stale key i (serve i events w).2 ≤
        w.posts + stale key i w + (events.filterMap Event.wire?).length + rotations events := by
  induction events with
  | nil =>
    intro w
    exact ⟨rfl, by simp [serve, rotations], by simp [serve, rotations]⟩
  | cons event events ih =>
    intro w
    cases event with
    | query queryWire =>
      obtain ⟨w', hrun, -, hgets, hposts⟩ := exchange_honest h queryWire w
      obtain ⟨hrs, hgets', hposts'⟩ := ih w'
      have hserve : serve i (.query queryWire :: events) w =
          (.ok (answer queryWire) :: (serve i events w').1, (serve i events w').2) := by
        simp only [serve, run_bind, run_pure, hrun]
      have hwires : (Event.query (N := N) queryWire :: events).filterMap Event.wire? =
          queryWire :: events.filterMap Event.wire? := rfl
      have hrotations : rotations (Event.query queryWire :: events) = rotations events :=
        List.countP_cons_of_neg (by simp [Event.wire?])
      rw [hserve, hwires, hrotations, hrs, List.map_cons, List.length_cons]
      dsimp only
      exact ⟨rfl, by omega, by omega⟩
    | rotate net =>
      obtain ⟨hrs, hgets', hposts'⟩ := ih { w with net }
      have hserve : serve i (.rotate net :: events) w = serve i events { w with net } := rfl
      have hwires : (Event.rotate net :: events).filterMap Event.wire? =
          events.filterMap Event.wire? := rfl
      have hrotations : rotations (Event.rotate net :: events) = rotations events + 1 :=
        List.countP_cons_of_pos rfl
      have hcalls : ({ w with net } : World t N).gets = w.gets ∧
          ({ w with net } : World t N).posts = w.posts := ⟨rfl, rfl⟩
      have hdue : unfetched key i { w with net } ≤ 1 := unfetched_le _
      have hold : stale key i { w with net } ≤ 1 := stale_le _
      rw [hserve, hwires, hrotations]
      exact ⟨hrs, by omega, by omega⟩

/-- **What a rotation costs.** With an honest target every query of a run is answered, however often
and whenever between queries the key changes; the arm asks for the config at most once more than
there are rotations, and a query is sent twice at most once per rotation. -/
theorem rotation_cost (h : Honest t i N key answer) (net : N.State) (events : List (Event N)) :
    let run := serve i events (fresh t N net)
    run.1 = (events.filterMap Event.wire?).map (fun q => .ok (answer q)) ∧
    run.2.gets ≤ 1 + rotations events ∧
    run.2.posts ≤ (events.filterMap Event.wire?).length + rotations events := by
  obtain ⟨hrs, hgets, hposts⟩ := serve_honest h events (fresh t N net)
  have hdue : unfetched key i (fresh t N net) = 1 := rfl
  have hfresh : stale key i (fresh t N net) = 0 := rfl
  have hnone : (fresh t N net).gets = 0 ∧ (fresh t N net).posts = 0 := ⟨rfl, rfl⟩
  exact ⟨hrs, by omega, by omega⟩

end

/-! ## A small target -/

/-- Keys are numbers, a sealed query is the number of the key before the query, and a reply the
answer as it is. -/
def plainRs : OdohRs where
  Config := UInt8
  Message := List UInt8
  Secret := Unit
  Seed := Unit
  parseConfigs := .ok
  encryptQuery plain c _ := .ok (c :: plain.dnsMsg, ())
  compose := .ok
  parseMessage := .ok
  decryptResponse _ message _ := .ok ⟨message, []⟩

def respondWith (status : Nat) (body : List UInt8) : Except Str HttpResponse :=
  .ok ⟨status, none, [.ok body]⟩

/-- A query under another key than the current one gets the status 400. -/
def relayReply (body : List UInt8) (key : UInt8) : Except Str HttpResponse :=
  if body.head? = some key then respondWith 200 ((body.drop 1).take 16).reverse
  else respondWith 400 []

/-- The state is the current key. -/
def rotatingTarget : Network plainRs where
  State := UInt8
  get _ key := (respondWith 200 [key], key)
  post request key := (relayReply request.body key, key)
  entropy key := (.ok (), key)
  random key := (0, key)

theorem judge_relayReply (plain : Plaintext) (c key : UInt8) :
    let verdict := judge plainRs plain () (replyReceived (relayReply (c :: plain.dnsMsg) key))
    verdict = .answer (plain.dnsMsg.take 16).reverse ∨ c ≠ key ∧ ∃ e, verdict = .staleKey e := by
  intro verdict
  by_cases hkey : c = key
  · left
    have hreply : relayReply (c :: plain.dnsMsg) key =
        respondWith 200 (plain.dnsMsg.take 16).reverse := if_pos (congrArg some hkey)
    have hread : replyReceived (respondWith 200 (plain.dnsMsg.take 16).reverse) =
        .ok (plain.dnsMsg.take 16).reverse := by
      change readUnder _ _ ⟨200, none, [.ok (plain.dnsMsg.take 16).reverse]⟩ = _
      rw [readUnder_ok_iff]
      refine ⟨fun n hn => (nomatch hn), ⟨[_], rfl, (List.append_nil _).symm⟩, ?_⟩
      rw [List.length_reverse]
      exact (List.length_take_le 16 _).trans (by decide)
    simp only [verdict, hreply, hread]
    rfl
  · right
    have hreply : relayReply (c :: plain.dnsMsg) key = respondWith 400 [] :=
      if_neg fun h => hkey (Option.some.inj h)
    simp only [verdict, hreply]
    exact ⟨hkey, .relayStatus 400, rfl⟩

def oneTarget : OdohTransport where
  targets := [⟨"https://a/q".toList, "a".toList, "/q".toList, "https://a/c".toList⟩]
  proxyUrls := ["https://r".toList]
  randomize := true
  padQueries := true
  targets_ne := by simp
  proxyUrls_ne := by simp

def onlyTarget : Fin oneTarget.targets.length := ⟨0, by decide⟩

theorem rotatingTarget_honest :
    Honest oneTarget onlyTarget rotatingTarget (fun key => key)
      (fun q => (q.take 16).reverse) where
  seals plain c seed := ⟨_, (), rfl⟩
  entropy key := ⟨⟨(), rfl⟩, rfl⟩
  random key := rfl
  get key := ⟨rfl, rfl⟩
  post key proxy hproxy plain c seed body secret hseal := by
    cases seed with
    | error e => cases hseal
    | ok seed =>
      cases hseal
      exact ⟨rfl, judge_relayReply plain c key⟩

instance : DecidableEq plainRs.Config := inferInstanceAs (DecidableEq UInt8)

theorem rotation_cost_small :
    let run := serve onlyTarget [.query [1, 2], .rotate (7 : UInt8), .query [3], .query [4, 5]]
      (fresh oneTarget rotatingTarget (5 : UInt8))
    run.1 = [.ok [2, 1], .ok [3], .ok [5, 4]] ∧ run.2.gets ≤ 2 ∧ run.2.posts ≤ 4 :=
  rotation_cost rotatingTarget_honest (5 : UInt8) _

end RustyDns.L3.Odoh
