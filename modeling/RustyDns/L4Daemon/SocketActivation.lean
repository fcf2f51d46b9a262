import RustyDns.L4Daemon.Listeners

/-!
# Socket activation

`InheritedSockets` and `build_dns_server` of `rustydnsd/src/listeners.rs`: the sockets that systemd
passes are adopted by the listeners they match, and a listener without one binds its own. A passed
descriptor is what `listenfd` finds it to be; a bind and the registration of a TLS listener end as the
kernel and hickory say (`Kernel`).

Results:
* `adoptOrBind_counted`: a listener takes a passed socket or tries a bind.
* `passed_sockets_are_adopted`: where every passed socket goes, and which binds are left.
* `started_server_is_live`: a daemon that came up serves its live addresses.
-/

namespace RustyDns.L4.Activation

open RustyDns.Lib RustyDns.L1

/-! ## Passed sockets -/

inductive Kind where
  | udp
  | tcp
  deriving DecidableEq, Repr

abbrev Endpoint := Kind × SocketAddr

/-- How the steps of an adoption end. -/
structure Adoption where
  localAddr : Except String SocketAddr
  setNonblocking : Except String Unit := .ok ()
  fromStd : Except String Unit := .ok ()

/-- A descriptor of `LISTEN_FDS`, by what it is. -/
inductive Fd where
  | tcpListener (steps : Adoption)
  | udpSocket (steps : Adoption)
  | neither

/-- The sockets not yet adopted, with their descriptors.
mirrors crates/rustydnsd/src/listeners.rs:139-146 -/
structure InheritedSockets where
  udp : List (SocketAddr × Nat)
  tcp : List (SocketAddr × Nat)
  totalPassed : Nat
  deriving DecidableEq, Repr

namespace InheritedSockets

/-- mirrors crates/rustydnsd/src/listeners.rs:152-158 -/
def empty : InheritedSockets := { udp := [], tcp := [], totalPassed := 0 }

/-- mirrors crates/rustydnsd/src/listeners.rs:162-164 -/
def socketActivationActive (s : InheritedSockets) : Bool := 0 < s.totalPassed

/-- One turn of the loop of `from_env`. -/
def adopt (s : InheritedSockets) (idx : Nat) : Fd → Except String InheritedSockets
  | .tcpListener steps => do
    let addr ← steps.localAddr.mapError fun e =>
      s!"LISTEN_FDS TCP socket has no local address: {e}"
    steps.setNonblocking.mapError fun e =>
      s!"failed to set inherited TCP listener non-blocking: {e}"
    steps.fromStd.mapError fun e => s!"failed to adopt inherited TCP listener into tokio: {e}"
    pure { s with tcp := s.tcp ++ [(addr, idx)] }
  | .udpSocket steps => do
    let addr ← steps.localAddr.mapError fun e =>
      s!"LISTEN_FDS UDP socket has no local address: {e}"
    steps.setNonblocking.mapError fun e =>
      s!"failed to set inherited UDP socket non-blocking: {e}"
    steps.fromStd.mapError fun e => s!"failed to adopt inherited UDP socket into tokio: {e}"
    pure { s with udp := s.udp ++ [(addr, idx)] }
  | .neither => pure s

/-- mirrors crates/rustydnsd/src/listeners.rs:176-214 -/
def fromEnv (fds : List Fd) : Except String InheritedSockets :=
  fds.zipIdx.foldlM (fun s p => s.adopt p.2 p.1) { empty with totalPassed := fds.length }

/-- mirrors crates/rustydnsd/src/listeners.rs:218-220 -/
def isEmpty (s : InheritedSockets) : Bool := s.udp.isEmpty && s.tcp.isEmpty

/-- mirrors crates/rustydnsd/src/listeners.rs:225-227 -/
def remaining (s : InheritedSockets) : Nat := s.udp.length + s.tcp.length

/-- The first entry for an address, and the rest: `position` and `remove`. -/
def takeFirst (addr : SocketAddr) :
    List (SocketAddr × Nat) → Option (Nat × List (SocketAddr × Nat))
  | [] => none
  | (a, fd) :: rest =>
    if a = addr then some (fd, rest)
    else (takeFirst addr rest).map fun r => (r.1, (a, fd) :: r.2)

/-- mirrors crates/rustydnsd/src/listeners.rs:230-233 -/
def takeUdp (s : InheritedSockets) (addr : SocketAddr) : Option (Nat × InheritedSockets) :=
  (takeFirst addr s.udp).map fun r => (r.1, { s with udp := r.2 })

/-- mirrors crates/rustydnsd/src/listeners.rs:236-239 -/
def takeTcp (s : InheritedSockets) (addr : SocketAddr) : Option (Nat × InheritedSockets) :=
  (takeFirst addr s.tcp).map fun r => (r.1, { s with tcp := r.2 })

end InheritedSockets

/-! ## The server -/

/-- Where a socket comes from: a descriptor, or a bind. -/
inductive Socket where
  | inherited (fd : Nat)
  | fresh
  deriving DecidableEq, Repr

/-- A listener that the server is to have. -/
structure Want where
  role : Role
  endpoint : Endpoint
  deriving DecidableEq, Repr

structure Listener extends Want where
  socket : Socket
  deriving DecidableEq, Repr

/-- The state of `build_dns_server`, with its calls and log lines: sockets adopted, binds tried, and
the warnings that a listener found no passed socket. -/
structure Setup where
  inherited : InheritedSockets
  adopted : List (Endpoint × Nat) := []
  binds : List Endpoint := []
  warned : List Endpoint := []
  server : List Listener := []
  deriving DecidableEq, Repr

/-- How the binds end, by their number, and the registrations with TLS. -/
structure Kernel where
  bind : Nat → Endpoint → Except String Unit
  registerTls : Except String Unit := .ok ()
  registerQuic : Except String Unit := .ok ()

abbrev M := ExceptT String (StateM Setup)

section
variable (K : Kernel)

/-- `bind_udp` and `bind_tcp`. -/
def bindSocket (e : Endpoint) : M Socket := fun s =>
  ((K.bind s.binds.length e).map fun _ => .fresh, { s with binds := s.binds ++ [e] })

/-- The branches of the two listener functions: what was taken, or a warning and a bind. -/
def adoptOrBind (e : Endpoint) (take : InheritedSockets → Option (Nat × InheritedSockets)) :
    M Socket := fun s =>
  match take s.inherited with
  | some (fd, rest) =>
    (.ok (.inherited fd), { s with inherited := rest, adopted := s.adopted ++ [(e, fd)] })
  | none =>
    bindSocket K e
      (if s.inherited.socketActivationActive then { s with warned := s.warned ++ [e] } else s)

/-- mirrors crates/rustydnsd/src/listeners.rs:244-269 -/
def udpListener (addr : SocketAddr) : M Socket := adoptOrBind K (.udp, addr) (·.takeUdp addr)

/-- mirrors crates/rustydnsd/src/listeners.rs:271-291 -/
def tcpListener (addr : SocketAddr) : M Socket := adoptOrBind K (.tcp, addr) (·.takeTcp addr)

def register (listener : Listener) : M Unit := fun s =>
  (.ok (), { s with server := s.server ++ [listener] })

/-- An outcome that the surroundings decide. -/
def outcome (result : Except String Unit) : M Unit := fun s => (result, s)

/-- `tls.context(text)?`. -/
def requireTls (tls : Bool) (text : String) : Except String Unit :=
  if tls then .ok () else .error text

def dotWithoutTls : String := "DoT listener configured but no TLS config was provided"

def doqWithoutTls : String := "DoQ listener configured but no DoQ TLS config provided"

def registerDot (addr : SocketAddr) : Except String Unit :=
  K.registerTls.mapError fun e => s!"failed to register DoT listener on {addr.display}: {e}"

def registerDoq (addr : SocketAddr) : Except String Unit :=
  K.registerQuic.mapError fun e => s!"failed to register DoQ listener on {addr.display}: {e}"

/-- `tls` and `doqTls` say whether a TLS config was passed.
mirrors crates/rustydnsd/src/listeners.rs:307-346 -/
def buildDnsServer (listen : List SocketAddr) (dot : Option SocketAddr) (tls : Bool)
    (doq : Option SocketAddr) (doqTls : Bool) : M Unit := do
  forM listen fun addr => do
    register ⟨⟨.plainDns, (.udp, addr)⟩, ← udpListener K addr⟩
    register ⟨⟨.plainDns, (.tcp, addr)⟩, ← tcpListener K addr⟩
  forM dot.toList fun addr => do
    outcome (requireTls tls dotWithoutTls)
    let tcp ← tcpListener K addr
    outcome (registerDot K addr)
    register ⟨⟨.dot, (.tcp, addr)⟩, tcp⟩
  forM doq.toList fun addr => do
    outcome (requireTls doqTls doqWithoutTls)
    let udp ← udpListener K addr
    outcome (registerDoq K addr)
    register ⟨⟨.doq, (.udp, addr)⟩, udp⟩

/-- The listeners of a server, in the order in which they are set up. -/
def wanted (listen : List SocketAddr) (dot doq : Option SocketAddr) : List Want :=
  (listen.flatMap fun addr => [⟨.plainDns, (.udp, addr)⟩, ⟨.plainDns, (.tcp, addr)⟩]) ++
    dot.toList.map (fun addr => ⟨.dot, (.tcp, addr)⟩) ++
    doq.toList.map (fun addr => ⟨.doq, (.udp, addr)⟩)

end

/-! ## Taking -/

namespace InheritedSockets

/-- All sockets not yet adopted. -/
def all (s : InheritedSockets) : List (Endpoint × Nat) :=
  s.udp.map (fun p => ((.udp, p.1), p.2)) ++ s.tcp.map fun p => ((.tcp, p.1), p.2)

theorem takeFirst_some {addr : SocketAddr} {pool rest : List (SocketAddr × Nat)} {fd : Nat}
    (h : takeFirst addr pool = some (fd, rest)) : ((addr, fd) :: rest).Perm pool := by
  induction pool generalizing rest with
  | nil => cases h
  | cons entry pool ih =>
    obtain ⟨a, fd'⟩ := entry
    rw [takeFirst] at h
    split at h
    · rename_i heq
      cases h
      rw [heq]
    · rw [Option.map_eq_some_iff] at h
      obtain ⟨r, hr, heq⟩ := h
      cases heq
      exact (List.Perm.swap _ _ _).trans ((ih hr).cons _)

theorem takeFirst_none {addr : SocketAddr} {pool : List (SocketAddr × Nat)}
    (h : takeFirst addr pool = none) : addr ∉ pool.map Prod.fst := by
  induction pool with
  | nil => simp
  | cons entry pool ih =>
    obtain ⟨a, fd⟩ := entry
    rw [takeFirst] at h
    split at h
    · cases h
    · rename_i hne
      rw [Option.map_eq_none_iff] at h
      simp only [List.map_cons, List.mem_cons, not_or]
      exact ⟨fun heq => hne heq.symm, ih h⟩

end InheritedSockets

/-- What `take` does, for either kind: one socket of the endpoint leaves, or there is none. -/
structure Takes (e : Endpoint) (take : InheritedSockets → Option (Nat × InheritedSockets)) : Prop where
  some : ∀ s fd rest, take s = some (fd, rest) →
    ((e, fd) :: rest.all).Perm s.all ∧ rest.totalPassed = s.totalPassed
  none : ∀ s, take s = none → e ∉ s.all.map Prod.fst

theorem takes_udp (addr : SocketAddr) : Takes (.udp, addr) (·.takeUdp addr) where
  some := by
    intro s fd rest h
    simp only [InheritedSockets.takeUdp, Option.map_eq_some_iff, Prod.exists, Prod.mk.injEq] at h
    obtain ⟨fd', rest', h, rfl, rfl⟩ := h
    have hperm := (InheritedSockets.takeFirst_some h).map fun p => (((.udp, p.1), p.2) : Endpoint × Nat)
    exact ⟨hperm.append_right _, rfl⟩
  none := by
    intro s h
    rw [InheritedSockets.takeUdp, Option.map_eq_none_iff] at h
    have hnot := InheritedSockets.takeFirst_none h
    simpa [InheritedSockets.all] using hnot

theorem takes_tcp (addr : SocketAddr) : Takes (.tcp, addr) (·.takeTcp addr) where
  some := by
    intro s fd rest h
    simp only [InheritedSockets.takeTcp, Option.map_eq_some_iff, Prod.exists, Prod.mk.injEq] at h
    obtain ⟨fd', rest', h, rfl, rfl⟩ := h
    have hperm := (InheritedSockets.takeFirst_some h).map fun p => (((.tcp, p.1), p.2) : Endpoint × Nat)
    exact ⟨List.perm_middle.symm.trans (hperm.append_left _), rfl⟩
  none := by
    intro s h
    rw [InheritedSockets.takeTcp, Option.map_eq_none_iff] at h
    have hnot := InheritedSockets.takeFirst_none h
    simpa [InheritedSockets.all] using hnot

/-! ## Accounts -/

/-- The socket behind a descriptor, if it is one. -/
def Fd.socket (idx : Nat) : Fd → List (Endpoint × Nat)
  | .tcpListener steps => steps.localAddr.toOption.toList.map fun addr => ((.tcp, addr), idx)
  | .udpSocket steps => steps.localAddr.toOption.toList.map fun addr => ((.udp, addr), idx)
  | .neither => []

/-- The sockets that systemd passed, with their descriptors. -/
def passedSockets (fds : List Fd) : List (Endpoint × Nat) :=
  fds.zipIdx.flatMap fun p => p.1.socket p.2

/-- After listeners at the endpoints `tried`: every passed socket is adopted or left, every listener
adopted one or tried a bind, no bind was tried while a passed socket was left for it, and each was
warned about. -/
structure Counted (fds : List Fd) (tried : List Endpoint) (s : Setup) : Prop where
  kept : (s.adopted ++ s.inherited.all).Perm (passedSockets fds)
  total : s.inherited.totalPassed = fds.length
  split : ∀ e, tried.count e = (s.adopted.map Prod.fst).count e + s.binds.count e
  spent : ∀ e ∈ s.binds, e ∉ s.inherited.all.map Prod.fst
  loud : s.warned = if fds.isEmpty then [] else s.binds

variable {K : Kernel} {fds : List Fd} {tried : List Endpoint} {s : Setup}

/-- A listener tries a bind only beyond what was passed for it. -/
theorem Counted.binds_count (h : Counted fds tried s) (e : Endpoint) :
    s.binds.count e = tried.count e - ((passedSockets fds).map Prod.fst).count e := by
  have hkept := (h.kept.map Prod.fst).count_eq e
  rw [List.map_append, List.count_append] at hkept
  have hsplit := h.split e
  by_cases hbound : e ∈ s.binds
  · have hnone := List.count_eq_zero.2 (h.spent e hbound)
    omega
  · have hnone := List.count_eq_zero.2 hbound
    omega

/-- The descriptor of a listener that adopted one. -/
def Socket.taken (e : Endpoint) : Socket → List (Endpoint × Nat)
  | .inherited fd => [(e, fd)]
  | .fresh => []

theorem Counted.adopt {e : Endpoint} {fd : Nat} {rest : InheritedSockets}
    (h : Counted fds tried s) (hperm : ((e, fd) :: rest.all).Perm s.inherited.all)
    (htotal : rest.totalPassed = s.inherited.totalPassed) :
    Counted fds (tried ++ [e])
      { s with inherited := rest, adopted := s.adopted ++ [(e, fd)] } where
  kept := by
    rw [List.append_assoc]
    exact (hperm.append_left _).trans h.kept
  total := htotal.trans h.total
  split := by
    intro e'
    have hsplit := h.split e'
    simp only [List.count_append, List.map_append, List.map_cons, List.map_nil]
    omega
  spent := by
    intro e' hbound hleft
    refine h.spent e' hbound ?_
    rw [← (hperm.map Prod.fst).mem_iff]
    exact List.mem_cons_of_mem _ hleft
  loud := h.loud

theorem Counted.bind {e : Endpoint} (h : Counted fds tried s)
    (hnone : e ∉ s.inherited.all.map Prod.fst) :
    Counted fds (tried ++ [e])
      { s with
        warned := if s.inherited.socketActivationActive then s.warned ++ [e] else s.warned
        binds := s.binds ++ [e] } where
  kept := h.kept
  total := h.total
  split := by
    intro e'
    have hsplit := h.split e'
    simp only [List.count_append]
    omega
  spent := by
    intro e' hbound
    rw [List.mem_append, List.mem_singleton] at hbound
    rcases hbound with hbound | rfl
    · exact h.spent e' hbound
    · exact hnone
  loud := by
    have hloud := h.loud
    cases hfds : fds with
    | nil =>
      rw [hfds] at hloud
      simp [hloud, InheritedSockets.socketActivationActive, h.total, hfds]
    | cons fd rest =>
      rw [hfds] at hloud
      simp [hloud, InheritedSockets.socketActivationActive, h.total, hfds]

theorem bindSocket_ok {e : Endpoint} {socket : Socket} (h : (bindSocket K e s).1 = .ok socket) :
    socket = .fresh := by
  unfold bindSocket at h
  cases hbind : K.bind s.binds.length e with
  | error text =>
    rw [hbind] at h
    cases h
  | ok u =>
    rw [hbind] at h
    cases h
    rfl

/-- One listener: it takes a passed socket or tries a bind. -/
theorem adoptOrBind_counted {e : Endpoint}
    {take : InheritedSockets → Option (Nat × InheritedSockets)} (ht : Takes e take)
    (h : Counted fds tried s) :
    Counted fds (tried ++ [e]) (adoptOrBind K e take s).2 ∧
      (adoptOrBind K e take s).2.server = s.server ∧
      ∀ socket, (adoptOrBind K e take s).1 = .ok socket →
        (adoptOrBind K e take s).2.adopted = s.adopted ++ socket.taken e := by
  cases htake : take s.inherited with
  | some taken =>
    obtain ⟨fd, rest⟩ := taken
    obtain ⟨hperm, htotal⟩ := ht.some _ _ _ htake
    simp only [adoptOrBind, htake]
    refine ⟨h.adopt hperm htotal, trivial, ?_⟩
    intro socket hsocket
    cases hsocket
    rfl
  | none =>
    have hcounted := h.bind (ht.none _ htake)
    simp only [adoptOrBind, htake]
    by_cases hactive : s.inherited.socketActivationActive = true
    all_goals
      simp only [hactive, if_true, if_false, Bool.false_eq_true] at hcounted ⊢
      refine ⟨hcounted, rfl, ?_⟩
      intro socket hsocket
      cases bindSocket_ok hsocket
      exact (List.append_nil _).symm

/-! ## The whole server -/

section
variable {α β : Type} {m : M α} {f : α → M β} {s' : Setup}

theorem run_bind_ok {a : α} (h : m s = (.ok a, s')) : (m >>= f) s = f a s' := by
  change ExceptT.bindCont f (m s).1 (m s).2 = f a s'
  rw [h]
  rfl

theorem run_bind_error {text : String} (h : m s = (.error text, s')) :
    (m >>= f) s = (.error text, s') := by
  change ExceptT.bindCont f (m s).1 (m s).2 = _
  rw [h]
  rfl

end

/-- The socket of an endpoint, of either kind. -/
def listener (K : Kernel) : Endpoint → M Socket
  | (.udp, addr) => udpListener K addr
  | (.tcp, addr) => tcpListener K addr

/-- A listener with what is checked before its socket is looked for and after. -/
structure Step where
  want : Want
  before : Except String Unit := .ok ()
  after : Except String Unit := .ok ()

def establish (K : Kernel) (step : Step) : M Unit := do
  outcome step.before
  let socket ← listener K step.want.endpoint
  outcome step.after
  register ⟨step.want, socket⟩

@[simp] theorem outcome_ok : outcome (.ok ()) = pure () := rfl

theorem establish_plain (K : Kernel) (want : Want) :
    establish K { want } = (do register ⟨want, ← listener K want.endpoint⟩) := by
  simp [establish]

/-- The steps of `build_dns_server`. -/
def plan (K : Kernel) (listen : List SocketAddr) (dot : Option SocketAddr) (tls : Bool)
    (doq : Option SocketAddr) (doqTls : Bool) : List Step :=
  (listen.flatMap fun addr =>
    [{ want := ⟨.plainDns, (.udp, addr)⟩ }, { want := ⟨.plainDns, (.tcp, addr)⟩ }]) ++
  (dot.toList.map (fun addr =>
    { want := ⟨.dot, (.tcp, addr)⟩
      before := requireTls tls dotWithoutTls
      after := registerDot K addr }) ++
  doq.toList.map fun addr =>
    { want := ⟨.doq, (.udp, addr)⟩
      before := requireTls doqTls doqWithoutTls
      after := registerDoq K addr })

theorem buildDnsServer_eq (listen : List SocketAddr) (dot : Option SocketAddr) (tls : Bool)
    (doq : Option SocketAddr) (doqTls : Bool) :
    buildDnsServer K listen dot tls doq doqTls =
      forM (plan K listen dot tls doq doqTls) (establish K) := by
  have hlisten : (forM listen fun addr => do
      register ⟨⟨.plainDns, (.udp, addr)⟩, ← udpListener K addr⟩
      register ⟨⟨.plainDns, (.tcp, addr)⟩, ← tcpListener K addr⟩) =
      forM (listen.flatMap fun addr => ([{ want := ⟨.plainDns, (.udp, addr)⟩ },
        { want := ⟨.plainDns, (.tcp, addr)⟩ }] : List Step)) (establish K) := by
    induction listen with
    | nil => rfl
    | cons addr rest ih =>
      simp only [List.forM_cons, List.flatMap_cons, List.cons_append, List.nil_append, ih,
        bind_assoc, establish_plain, listener]
  unfold buildDnsServer plan
  rw [List.forM_append, List.forM_append, hlisten]
  congr 1
  funext u
  congr 1
  · cases dot <;> simp [establish, listener]
  · funext u
    cases doq <;> simp [establish, listener]

theorem map_want_plan (listen : List SocketAddr) (dot : Option SocketAddr) (tls : Bool)
    (doq : Option SocketAddr) (doqTls : Bool) :
    (plan K listen dot tls doq doqTls).map Step.want = wanted listen dot doq := by
  simp only [plan, wanted, List.map_append, List.map_flatMap, List.map_map, List.append_assoc]
  rfl

/-- The state between two listeners: the server has those set up so far, each on its socket. -/
structure Served (fds : List Fd) (done : List Want) (s : Setup) : Prop where
  counted : Counted fds (done.map Want.endpoint) s
  server : s.server.map Listener.toWant = done
  sockets : s.server.flatMap (fun l => l.socket.taken l.endpoint) = s.adopted

/-- A run that may have stopped early: it has tried some of the listeners, in their order. -/
def Stopped (fds : List Fd) (all : List Want) (s : Setup) : Prop :=
  ∃ tried, tried <+: all.map Want.endpoint ∧ Counted fds tried s

theorem listener_counted (e : Endpoint) (h : Counted fds tried s) :
    Counted fds (tried ++ [e]) (listener K e s).2 ∧
      (listener K e s).2.server = s.server ∧
      ∀ socket, (listener K e s).1 = .ok socket →
        (listener K e s).2.adopted = s.adopted ++ socket.taken e := by
  obtain ⟨kind, addr⟩ := e
  cases kind with
  | udp => exact adoptOrBind_counted (takes_udp addr) h
  | tcp => exact adoptOrBind_counted (takes_tcp addr) h

theorem establish_served {done : List Want} (step : Step) (h : Served fds done s) :
    Stopped fds (done ++ [step.want]) (establish K step s).2 ∧
      ∀ u, (establish K step s).1 = .ok u →
        Served fds (done ++ [step.want]) (establish K step s).2 := by
  obtain ⟨hcounted, hserver, hadopted⟩ := listener_counted (K := K) step.want.endpoint h.counted
  have htried : Stopped fds (done ++ [step.want]) (listener K step.want.endpoint s).2 :=
    ⟨_, by simp, hcounted⟩
  cases hbefore : step.before with
  | error text =>
    have hrun : establish K step s = (.error text, s) := by
      rw [establish, hbefore]
      exact run_bind_error rfl
    rw [hrun]
    refine ⟨⟨_, by simp, h.counted⟩, ?_⟩
    intro u hu
    cases hu
  | ok u =>
    have hfirst : establish K step s = (do
        let socket ← listener K step.want.endpoint
        outcome step.after
        register ⟨step.want, socket⟩ : M Unit) s := by
      rw [establish, hbefore]
      exact run_bind_ok rfl
    rw [hfirst]
    cases hlistener : listener K step.want.endpoint s with
    | mk result s₁ =>
      rw [hlistener] at hcounted hserver hadopted htried
      cases result with
      | error text =>
        rw [run_bind_error hlistener]
        refine ⟨htried, ?_⟩
        intro u hu
        cases hu
      | ok socket =>
        rw [run_bind_ok hlistener]
        cases hafter : step.after with
        | error text =>
          rw [run_bind_error (show outcome (.error text) s₁ = (.error text, s₁) from rfl)]
          refine ⟨htried, ?_⟩
          intro u hu
          cases hu
        | ok u =>
          rw [run_bind_ok (show outcome (.ok u) s₁ = (.ok u, s₁) from rfl)]
          have hdone : Counted fds ((done ++ [step.want]).map Want.endpoint) s₁ := by
            rw [List.map_append]
            exact hcounted
          have hsame : s₁.server = s.server := hserver
          have htaken : s₁.adopted = s.adopted ++ socket.taken step.want.endpoint :=
            hadopted socket rfl
          -- the registration touches the server only
          have hserved : Served fds (done ++ [step.want])
              { s₁ with server := s₁.server ++ [⟨step.want, socket⟩] } :=
            { counted := ⟨hdone.kept, hdone.total, hdone.split, hdone.spent, hdone.loud⟩
              server := by simp [hsame, h.server]
              sockets := by simp [hsame, h.sockets, htaken] }
          exact ⟨⟨_, List.prefix_rfl, hserved.counted⟩, fun _ _ => hserved⟩

theorem Stopped.mono {all all' : List Want} (h : Stopped fds all s) (hall : all <+: all') :
    Stopped fds all' s := by
  obtain ⟨tried, htried, hcounted⟩ := h
  exact ⟨tried, htried.trans (hall.map _), hcounted⟩

theorem steps_served (steps : List Step) {done : List Want} (h : Served fds done s) :
    Stopped fds (done ++ steps.map Step.want) (forM steps (establish K) s).2 ∧
      ∀ u, (forM steps (establish K) s).1 = .ok u →
        Served fds (done ++ steps.map Step.want) (forM steps (establish K) s).2 := by
  induction steps generalizing done s with
  | nil =>
    simp only [List.map_nil, List.append_nil]
    exact ⟨⟨_, List.prefix_rfl, h.counted⟩, fun _ _ => h⟩
  | cons step steps ih =>
    obtain ⟨hstopped, hserved⟩ := establish_served (K := K) step h
    have hall : done ++ (step :: steps).map Step.want =
        done ++ [step.want] ++ steps.map Step.want := by simp
    rw [List.forM_cons, hall]
    cases hstep : establish K step s with
    | mk result s₁ =>
      rw [hstep] at hstopped hserved
      cases result with
      | error text =>
        rw [run_bind_error hstep]
        refine ⟨hstopped.mono (List.prefix_append _ _), ?_⟩
        intro u hu
        cases hu
      | ok u =>
        rw [run_bind_ok hstep]
        exact ih (hserved u rfl)

/-! ## What was passed -/

theorem adopt_ok {inherited inherited' : InheritedSockets} {idx : Nat} {fd : Fd}
    (h : inherited.adopt idx fd = .ok inherited') :
    inherited'.all.Perm (inherited.all ++ fd.socket idx) ∧
      inherited'.totalPassed = inherited.totalPassed := by
  cases fd with
  | tcpListener steps =>
    simp only [InheritedSockets.adopt, Checks.bind_ok_iff, Checks.mapError_ok_iff,
      Checks.pure_ok_iff] at h
    obtain ⟨addr, haddr, _, -, _, -, rfl⟩ := h
    simp [InheritedSockets.all, Fd.socket, haddr, Except.toOption]
  | udpSocket steps =>
    simp only [InheritedSockets.adopt, Checks.bind_ok_iff, Checks.mapError_ok_iff,
      Checks.pure_ok_iff] at h
    obtain ⟨addr, haddr, _, -, _, -, rfl⟩ := h
    refine ⟨?_, rfl⟩
    simp only [InheritedSockets.all, Fd.socket, haddr, Except.toOption, List.map_append,
      Option.toList_some, List.map_cons, List.map_nil, List.append_assoc]
    exact (List.perm_append_comm).append_left _
  | neither =>
    cases h
    simp [Fd.socket]

theorem fromEnv_ok {fds : List Fd} {inherited : InheritedSockets}
    (h : InheritedSockets.fromEnv fds = .ok inherited) :
    inherited.all.Perm (passedSockets fds) ∧ inherited.totalPassed = fds.length := by
  -- over the descriptors still to be looked at, from any state
  have hloop : ∀ (rest : List (Fd × Nat)) (acc acc' : InheritedSockets),
      rest.foldlM (fun s p => s.adopt p.2 p.1) acc = .ok acc' →
      acc'.all.Perm (acc.all ++ rest.flatMap fun p => p.1.socket p.2) ∧
        acc'.totalPassed = acc.totalPassed := by
    intro rest
    induction rest with
    | nil =>
      intro acc acc' hrun
      cases hrun
      simp
    | cons p rest ih =>
      intro acc acc' hrun
      rw [List.foldlM_cons, Checks.bind_ok_iff] at hrun
      obtain ⟨mid, hmid, hrest⟩ := hrun
      obtain ⟨hperm, htotal⟩ := adopt_ok hmid
      obtain ⟨hperm', htotal'⟩ := ih mid acc' hrest
      refine ⟨?_, htotal'.trans htotal⟩
      rw [List.flatMap_cons, ← List.append_assoc]
      exact hperm'.trans (hperm.append_right _)
  exact hloop _ _ _ h

theorem buildDnsServer_served {inherited : InheritedSockets}
    (hfds : InheritedSockets.fromEnv fds = .ok inherited) (listen : List SocketAddr)
    (dot : Option SocketAddr) (tls : Bool) (doq : Option SocketAddr) (doqTls : Bool) :
    Stopped fds (wanted listen dot doq)
        (buildDnsServer K listen dot tls doq doqTls { inherited }).2 ∧
      ∀ u, (buildDnsServer K listen dot tls doq doqTls { inherited }).1 = .ok u →
        Served fds (wanted listen dot doq)
          (buildDnsServer K listen dot tls doq doqTls { inherited }).2 := by
  obtain ⟨hperm, htotal⟩ := fromEnv_ok hfds
  have hstart : Served fds [] { inherited } :=
    { counted :=
        { kept := hperm
          total := htotal
          split := by simp
          spent := by simp
          loud := by simp }
      server := rfl
      sockets := rfl }
  have hrun := steps_served (K := K) (plan K listen dot tls doq doqTls) hstart
  rw [List.nil_append, map_want_plan] at hrun
  rw [buildDnsServer_eq]
  exact hrun

/-- **Every passed socket is adopted once or left over.** Whatever systemd passes and however the binds
end: if the server is built, it has exactly the configured listeners, each on a socket of its own
kind and address; every passed socket is that of one listener or is left over; and the daemon binds a
listener itself exactly as often as more listeners are configured than sockets passed for its
endpoint, with a warning each time if any were passed. A startup that fails does not bind more. -/
theorem passed_sockets_are_adopted (K : Kernel) (fds : List Fd) (inherited : InheritedSockets)
    (hfds : InheritedSockets.fromEnv fds = .ok inherited) (listen : List SocketAddr)
    (dot : Option SocketAddr) (tls : Bool) (doq : Option SocketAddr) (doqTls : Bool)
    (result : Except String Unit) (s : Setup)
    (hrun : buildDnsServer K listen dot tls doq doqTls { inherited } = (result, s)) :
    (∀ e, s.binds.count e ≤ ((wanted listen dot doq).map Want.endpoint).count e -
      ((passedSockets fds).map Prod.fst).count e) ∧
    (result = .ok () →
      s.server.map Listener.toWant = wanted listen dot doq ∧
      (s.server.flatMap (fun l => l.socket.taken l.endpoint) ++ s.inherited.all).Perm
        (passedSockets fds) ∧
      (∀ e, s.binds.count e = ((wanted listen dot doq).map Want.endpoint).count e -
        ((passedSockets fds).map Prod.fst).count e) ∧
      s.warned = if fds.isEmpty then [] else s.binds) := by
  obtain ⟨hstopped, hserved⟩ := buildDnsServer_served (K := K) hfds listen dot tls doq doqTls
  rw [hrun] at hstopped hserved
  constructor
  · obtain ⟨tried, htried, hcounted⟩ := hstopped
    intro e
    rw [hcounted.binds_count e]
    have hle := htried.sublist.count_le e
    omega
  · intro hok
    have hdone := hserved () hok
    refine ⟨hdone.server, ?_, hdone.counted.binds_count, hdone.counted.loud⟩
    rw [hdone.sockets]
    exact hdone.counted.kept

def port53 : SocketAddr := { ip := .v4 0, port := 53 }

def port853 : SocketAddr := { ip := .v4 0, port := 853 }

/-- Both sockets of port 53 and a descriptor that is no socket. -/
def dnsSockets : List Fd :=
  [.udpSocket { localAddr := .ok port53 }, .neither, .tcpListener { localAddr := .ok port53 }]

theorem passed_sockets_are_adopted_dot :
    let run := buildDnsServer { bind := fun _ _ => .ok () } [port53] (some port853) true none false
      { inherited := { udp := [(port53, 0)], tcp := [(port53, 2)], totalPassed := 3 } }
    run.2.server.map Listener.toWant = wanted [port53] (some port853) none ∧
      run.2.binds.count (.tcp, port853) = 1 ∧ run.2.binds.count (.udp, port53) = 0 := by
  have h := (passed_sockets_are_adopted { bind := fun _ _ => .ok () } dnsSockets
    { udp := [(port53, 0)], tcp := [(port53, 2)], totalPassed := 3 } rfl [port53] (some port853) true
    none false _ _ rfl).2 rfl
  exact ⟨h.1, h.2.2.1 _, h.2.2.1 _⟩

/-! ## Startup -/

/-- The DNS server of a start: a TLS config is loaded for each listener that needs one. -/
def startDns (K : Kernel) (inherited : InheritedSockets) (cfg : DnsConfig) :
    Except String Unit × Setup :=
  match parseSocketAddrs cfg.server.listen, parseOptional "server.dot_listen" cfg.server.dotListen,
    parseOptional "server.doq_listen" cfg.server.doqListen with
  | .ok listen, .ok dot, .ok doq =>
    buildDnsServer K listen dot dot.isSome doq doq.isSome { inherited }
  | _, _, _ => (.ok (), { inherited })

theorem start_dnsServer {o : Outcomes} {cfg : DnsConfig} {active : ActiveListeners}
    (h : ActiveListeners.start o cfg = .ok active) : o.dnsServer = .ok () := by
  simp only [ActiveListeners.start, Checks.bind_ok_iff, Checks.mapError_ok_iff] at h
  obtain ⟨_, -, _, -, _, -, _, -, _, -, u, hserver, -⟩ := h
  exact hserver

/-- A daemon that came up serves the live addresses of its DNS group, on passed sockets or its own. -/
theorem started_server_is_live {o : Outcomes} {cfg : DnsConfig} {active : ActiveListeners}
    {inherited : InheritedSockets} (hp : ServerPassed cfg)
    (hfds : InheritedSockets.fromEnv fds = .ok inherited)
    (hstart : ActiveListeners.start { o with dnsServer := (startDns K inherited cfg).1 } cfg =
      .ok active) :
    (startDns K inherited cfg).2.server.map Listener.toWant =
      wanted active.liveListen active.liveDot active.liveDoq := by
  have hok : (startDns K inherited cfg).1 = .ok () := start_dnsServer hstart
  have hlive : active.listeners = cfg.listeners := start_listeners hp hstart
  have hwanted : wanted active.liveListen active.liveDot active.liveDoq =
      wanted cfg.listeners.listen cfg.listeners.dot cfg.listeners.doq := by
    rw [← hlive]
    rfl
  simp only [startDns, parseSocketAddrs_of_passed hp, parseOptional_of_map_some hp.dot,
    parseOptional_of_map_some hp.doq] at hok ⊢
  rw [hwanted]
  exact ((buildDnsServer_served hfds _ _ _ _ _).2 () hok).server

end RustyDns.L4.Activation
