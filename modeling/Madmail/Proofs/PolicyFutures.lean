import Madmail.Remote.Security

namespace Madmail.Proofs.PolicyFutures
open Exterrors Lib Remote.Security List Function
open Remote (TLSLevel MXLevel fqdn)
open Smtpconn (TLSState)

section Field
variable {ρ : Type} {s s' : Shared ρ} {fetch : String → ρ} {key : String} {i : Nat}

/-- Every future that is set has the result for the key it was made for. -/
def Right (fetch : String → ρ) (s : Shared ρ) : Prop :=
  ∀ f ∈ s.futures, ∀ result, f.2.result = some result → result = fetch f.1

def MadeFor (s : Shared ρ) (i : Nat) (key : String) : Prop :=
  s.futures[i]?.map Prod.fst = some key

/-- The future in the field was made for the key. -/
def own (s : Shared ρ) (key : String) : Bool := s.current.any (fun f => f.1 = key)

/-- The result for the key goes to a future made for it, or nowhere. -/
def lands (s : Shared ρ) (key : String) : Bool :=
  s.current.all (fun f => f.1 = key || f.2.result.isSome)

theorem right_prepare (h : Right fetch s) : Right fetch (s.prepare key) := by
  intro f hf result hr
  rcases mem_append.mp hf with hf | hf
  · exact h f hf result hr
  · cases mem_singleton.mp hf
    cases hr

/-- A fetch that ends in time sets the right future. -/
theorem right_complete (h : Right fetch s) (hl : lands s key = true) :
    Right fetch (s.complete key (fetch key)) := by
  unfold Shared.complete
  cases hfield : s.field with
  | none => exact h
  | some i =>
    intro f hf result hr
    obtain ⟨j,hj⟩ := mem_iff_getElem?.mp hf
    rw [getElem?_modify] at hj
    obtain ⟨g,hg,rfl⟩ := Option.map_eq_some_iff.mp hj
    have hgr := h g (mem_of_getElem? hg)
    by_cases hij : i = j
    · rw [if_pos hij] at hr ⊢
      dsimp only [Future.set] at hr ⊢
      split at hr
      · exact hgr result hr
      · rename_i hunset
        cases hr
        have hcurrent : s.current = some g := by
          unfold Shared.current
          rw [hfield,hij]
          exact hg
        unfold lands at hl
        rw [hcurrent] at hl
        have hkey : g.1 = key := by
          rcases Bool.or_eq_true _ _ ▸ hl with hk | hs
          · simpa using hk
          · exact absurd hs hunset
        rw [hkey]
    · rw [if_neg hij] at hr ⊢
      exact hgr result hr

theorem madeFor_prepare (h : MadeFor s i key) : MadeFor (s.prepare key') i key := by
  unfold MadeFor at h ⊢
  obtain ⟨f,hf,hk⟩ := Option.map_eq_some_iff.mp h
  obtain ⟨hlt, -⟩ := List.getElem?_eq_some_iff.mp hf
  dsimp only [Shared.prepare]
  rw [getElem?_append_left hlt]
  exact h

theorem madeFor_complete (h : MadeFor s i key) (key' : String) (result : ρ) :
    MadeFor (s.complete key' result) i key := by
  unfold MadeFor Shared.complete at *
  cases hfield : s.field with
  | none => exact h
  | some j =>
    obtain ⟨f,hf,hk⟩ := Option.map_eq_some_iff.mp h
    rw [getElem?_modify,hf,← hk]
    split <;> rfl

theorem madeFor_of_own (ho : own s key = true) (hi : s.field = some i) : MadeFor s i key := by
  unfold own Shared.current at ho
  rw [hi,Option.bind_some] at ho
  unfold MadeFor
  cases hf : s.futures[i]? with
  | none =>
    rw [hf] at ho
    cases ho
  | some f =>
    rw [hf] at ho
    simpa using ho

/-- The result that a call waits for is that of its key. -/
theorem right_get (h : Right fetch s) (hm : MadeFor s i key) (hf : s.futures[i]? = some f)
    (hr : f.2.result = some result) : result = fetch key := by
  unfold MadeFor at hm
  rw [hf] at hm
  cases hm
  exact h f (mem_of_getElem? hf) result hr

end Field

variable {kind : Nat → Kind} {policies : List Nat} {w w' : World} {domain : String} {r : Routine}
  {st : Step} {m : Move} {a : Action}

/-- The results that calls of policies have got are those of their own domains and
hosts. -/
def Fetched (kind : Nat → Kind) : Consult → Prop
  | .sts p domain found => ∃ env, kind p = .mtasts env ∧ found = env.mtastsGet domain
  | .tlsa p host found => ∃ env, kind p = .dane env true ∧ found = discoverTLSA env (fqdn host)

def asksSts : Pos → Option Nat
  | .checkMX (p :: _) _ _ _ | .checkConn (p :: _) _ _ _ _ _ => some p
  | _ => none

def asksTLSA : Pos → Option (Nat × String)
  | .checkConn (p :: _) mx _ _ _ _ => some (p,mx)
  | _ => none

/-- A call finds the future of its own domain or host in the field, and so does a
fetch that ends, unless the future in the field is set. -/
def inTime (kind : Nat → Kind) (w : World) : Action → Bool
  | .go domain _ => (w.routines domain).all (fun r =>
      (asksSts r.pos).all (fun p =>
        match kind p with
        | .mtasts _ => own (w.sts p) domain
        | _ => true) &&
      (asksTLSA r.pos).all (fun e =>
        match kind e.1 with
        | .dane _ true => own (w.tlsa e.1) (fqdn e.2)
        | _ => true))
  | .fetchedPolicy p domain => lands (w.sts p) domain
  | .fetchedTLSA p host => lands (w.tlsa p) host

def waiting : Pos → Bool
  | .waitMX .. | .waitConn .. | .waitTLSA .. => true
  | _ => false

variable (kind : Nat → Kind) (w : World) (domain : String) (r : Routine) in
/-- What a goroutine may do next: it prepares, asks, waits for a future or has its result. -/
inductive Moves : Move → Prop where
  | quiet (pos : Pos) (h : waiting pos = false) : Moves { pos := pos }
  | prepareDomain (p : Nat) (left : List Nat) :
      Moves { pos := .prepareDomain left, preparesSts := some p }
  | prepareConn (p : Nat) (left : List Nat) (mx : String) (mxs : List String) (mxLevel : MXLevel) :
      Moves
        { pos := .checkMX left mx mxs mxLevel, preparesTLSA := some (p,mx) }
  | takeMX (p i : Nat) (env : Remote.Security.Env) (left : List Nat) (mx : String) (mxs : List String)
      (mxLevel : MXLevel) (hk : kind p = .mtasts env) (hpos : asksSts r.pos = some p)
      (hi : (w.sts p).field = some i) :
      Moves { pos := .waitMX p i left mx mxs mxLevel }
  | takeConn (p i : Nat) (env : Remote.Security.Env) (left : List Nat) (mx : String) (mxs : List String)
      (mxLevel : MXLevel) (tlsLevel : TLSLevel) (tlsState : TLSState) (hk : kind p = .mtasts env)
      (hpos : asksSts r.pos = some p) (hi : (w.sts p).field = some i) :
      Moves { pos := .waitConn p i left mx mxs mxLevel tlsLevel tlsState }
  | takeTLSA (p i : Nat) (env : Remote.Security.Env) (left : List Nat) (mx : String) (mxs : List String)
      (mxLevel : MXLevel) (tlsLevel : TLSLevel) (tlsState : TLSState)
      (hk : kind p = .dane env true) (hpos : asksTLSA r.pos = some (p,mx))
      (hi : (w.tlsa p).field = some i) :
      Moves { pos := .waitTLSA p i left mx mxs mxLevel tlsLevel tlsState }
  | getSts (p i : Nat) (f : String × Future (Except Err StsPolicy)) (pos : Pos)
      (hpos : (∃ left mx mxs mxLevel, r.pos = .waitMX p i left mx mxs mxLevel) ∨
        ∃ left mx mxs mxLevel tlsLevel tlsState,
          r.pos = .waitConn p i left mx mxs mxLevel tlsLevel tlsState)
      (hf : (w.sts p).futures[i]? = some f) (h : waiting pos = false) :
      Moves { pos := pos, consult := f.2.result.map (.sts p domain) }
  | getTLSA (p i : Nat) (f : String × Future (Except Err (List TLSA))) (pos : Pos)
      (left : List Nat) (mx : String) (mxs : List String) (mxLevel : MXLevel)
      (tlsLevel : TLSLevel) (tlsState : TLSState)
      (hpos : r.pos = .waitTLSA p i left mx mxs mxLevel tlsLevel tlsState)
      (hf : (w.tlsa p).futures[i]? = some f) (h : waiting pos = false) :
      Moves { pos := pos, consult := f.2.result.map (.tlsa p mx) }

theorem mxChecked_awake : waiting (mxChecked p left mx mxs mxLevel res) = false := by
  cases res <;> rfl

theorem connChecked_awake :
    waiting (connChecked left mx mxs mxLevel tlsLevel tlsState res) = false := by
  cases res <;> rfl

theorem checkMX_moves (hpos : r.pos = .checkMX (p :: left) mx mxs mxLevel)
    (h : checkMX kind w domain dnssecOk p left mx mxs mxLevel = some pos) :
    Moves kind w domain r { pos := pos } := by
  unfold checkMX at h
  cases hk : kind p with
  | mtasts env =>
    rw [hk] at h
    obtain ⟨i,hi,rfl⟩ := Option.map_eq_some_iff.mp h
    exact .takeMX p i env left mx mxs mxLevel hk (by rw [hpos]; rfl) hi
  | dane env extResolver | other policy =>
    rw [hk] at h
    cases h
    exact .quiet _ mxChecked_awake

theorem checkConn_moves (hpos : r.pos = .checkConn (p :: left) mx mxs mxLevel tlsLevel tlsState)
    (h : checkConn kind w domain p left mx mxs mxLevel tlsLevel tlsState = some pos) :
    Moves kind w domain r { pos := pos } := by
  unfold checkConn at h
  cases hk : kind p with
  | mtasts env =>
    rw [hk] at h
    obtain ⟨i,hi,rfl⟩ := Option.map_eq_some_iff.mp h
    exact .takeConn p i env left mx mxs mxLevel tlsLevel tlsState hk (by rw [hpos]; rfl) hi
  | dane env extResolver =>
    rw [hk] at h
    cases extResolver with
    | true =>
      obtain ⟨i,hi,rfl⟩ := Option.map_eq_some_iff.mp h
      exact .takeTLSA p i env left mx mxs mxLevel tlsLevel tlsState hk (by rw [hpos]; rfl) hi
    | false =>
      cases h
      exact .quiet _ connChecked_awake
  | other policy =>
    rw [hk] at h
    cases h
    exact .quiet _ connChecked_awake

theorem resume_moves (h : resume kind w domain ctxErr r.pos = some m) :
    Moves kind w domain r m := by
  generalize hpos : r.pos = pos at h
  revert h
  fun_cases resume kind w domain ctxErr pos <;> intro h
  case case4 => cases h
  all_goals
    simp only [Option.bind_eq_bind,Option.bind_eq_some_iff] at h
    obtain ⟨f,hf,found, -,h⟩ := h
    try split at h
  all_goals cases h
  · exact .getSts _ _ f _ (.inl ⟨_,_,_,_,hpos⟩) hf mxChecked_awake
  · exact .getSts _ _ f _ (.inr ⟨_,_,_,_,_,_,hpos⟩) hf connChecked_awake
  · exact .getTLSA _ _ f _ _ _ _ _ _ _ hpos hf connChecked_awake

theorem moves_of_move (h : move kind policies w domain r st = some m) :
    Moves kind w domain r m := by
  revert h
  fun_cases move kind policies w domain r st <;> intro h
  case case2 =>
    cases h
    unfold prepareDomain
    split
    · exact .prepareDomain _ _
    · exact .quiet _ rfl
  case case12 hpos =>
    obtain ⟨pos,hc,rfl⟩ := Option.map_eq_some_iff.mp h
    exact checkMX_moves hpos hc
  case case14 =>
    cases h
    unfold prepareConn
    split
    · exact .prepareConn _ _ _ _ _
    · exact .quiet _ rfl
  case case20 hpos =>
    obtain ⟨pos,hc,rfl⟩ := Option.map_eq_some_iff.mp h
    exact checkConn_moves hpos hc
  case case22 => exact resume_moves h
  all_goals
    cases h
    try exact .quiet _ rfl

/-- A goroutine that waits does so for a future of its own domain or host. -/
def Waits (kind : Nat → Kind) (w : World) (domain : String) : Pos → Prop
  | .waitMX p i _ _ _ _ | .waitConn p i _ _ _ _ _ _ =>
    (∃ env, kind p = .mtasts env) ∧ MadeFor (w.sts p) i domain
  | .waitTLSA p i _ mx _ _ _ _ =>
    (∃ env, kind p = .dane env true) ∧ MadeFor (w.tlsa p) i (fqdn mx)
  | _ => True

theorem waits_awake (h : waiting pos = false) : Waits kind w domain pos := by
  cases pos <;> trivial

theorem Waits.mono (h : Waits kind w domain pos)
    (hsts : ∀ p i key, MadeFor (w.sts p) i key → MadeFor (w'.sts p) i key)
    (htlsa : ∀ p i key, MadeFor (w.tlsa p) i key → MadeFor (w'.tlsa p) i key) :
    Waits kind w' domain pos := by
  cases pos with
  | waitMX p i left mx mxs mxLevel | waitConn p i left mx mxs mxLevel tlsLevel tlsState =>
    exact ⟨h.1,hsts p i domain h.2⟩
  | waitTLSA p i left mx mxs mxLevel tlsLevel tlsState => exact ⟨h.1,htlsa p i _ h.2⟩
  | _ => trivial

structure Inv (kind : Nat → Kind) (w : World) : Prop where
  sts : ∀ p env, kind p = .mtasts env → Right env.mtastsGet (w.sts p)
  tlsa : ∀ p env e, kind p = .dane env e → Right (discoverTLSA env) (w.tlsa p)
  waits : ∀ domain r, w.routines domain = some r → Waits kind w domain r.pos
  fetched : ∀ e ∈ w.consults, Fetched kind e

section Moved
variable (w) (domain) (r) (m)

theorem moved_sts : (w.moved domain r m).sts p = w.sts p ∨
    (w.moved domain r m).sts p = (w.sts p).prepare domain := by
  unfold World.moved
  cases m.preparesSts with
  | none => exact .inl rfl
  | some q =>
    dsimp only
    by_cases h : p = q
    · rw [h,update_self]
      exact .inr rfl
    · rw [update_of_ne h]
      exact .inl rfl

theorem moved_tlsa : (w.moved domain r m).tlsa p = w.tlsa p ∨
    ∃ mx, (w.moved domain r m).tlsa p = (w.tlsa p).prepare (fqdn mx) := by
  unfold World.moved
  cases m.preparesTLSA with
  | none => exact .inl rfl
  | some e =>
    obtain ⟨q,mx⟩ := e
    dsimp only
    by_cases h : p = q
    · rw [h,update_self]
      exact .inr ⟨mx,rfl⟩
    · rw [update_of_ne h]
      exact .inl rfl

theorem moved_madeFor : (∀ p i key, MadeFor (w.sts p) i key → MadeFor ((w.moved domain r m).sts p) i key) ∧
    ∀ p i key, MadeFor (w.tlsa p) i key → MadeFor ((w.moved domain r m).tlsa p) i key := by
  constructor
  · intro p i key h
    rcases moved_sts w domain r m with heq | heq
    · rwa [heq]
    · rw [heq]
      exact madeFor_prepare h
  · intro p i key h
    rcases moved_tlsa w domain r m with heq | ⟨mx,heq⟩
    · rwa [heq]
    · rw [heq]
      exact madeFor_prepare h

end Moved

theorem moves_waits (hr : w.routines domain = some r) (hm : Moves kind w domain r m)
    (hok : inTime kind w (.go domain st) = true) : Waits kind w domain m.pos := by
  simp only [inTime,hr,Option.all_some,Bool.and_eq_true] at hok
  obtain ⟨hsts,htlsa⟩ := hok
  cases hm with
  | quiet pos h | getSts p i f pos hpos hf h
  | getTLSA p i f pos left mx mxs mxLevel tlsLevel tlsState hpos hf h =>
    exact waits_awake h
  | prepareDomain p left => trivial
  | prepareConn p left mx mxs mxLevel => trivial
  | takeMX p i env left mx mxs mxLevel hk hpos hi
  | takeConn p i env left mx mxs mxLevel tlsLevel tlsState hk hpos hi =>
    rw [hpos,Option.all_some,hk] at hsts
    exact ⟨⟨env,hk⟩,madeFor_of_own hsts hi⟩
  | takeTLSA p i env left mx mxs mxLevel tlsLevel tlsState hk hpos hi =>
    rw [hpos,Option.all_some] at htlsa
    rw [hk] at htlsa
    exact ⟨⟨env,hk⟩,madeFor_of_own htlsa hi⟩

theorem moves_fetched (hinv : Inv kind w) (hr : w.routines domain = some r)
    (hm : Moves kind w domain r m) : ∀ e ∈ m.consult, Fetched kind e := by
  intro e he
  have hwaits := hinv.waits domain r hr
  cases hm with
  | getSts p i f pos hpos hf h =>
    obtain ⟨found,hresult,rfl⟩ := Option.map_eq_some_iff.mp he
    have hown : (∃ env, kind p = .mtasts env) ∧ MadeFor (w.sts p) i domain := by
      rcases hpos with ⟨left,mx,mxs,mxLevel,hpos⟩ |
        ⟨left,mx,mxs,mxLevel,tlsLevel,tlsState,hpos⟩
      all_goals
        rw [hpos] at hwaits
        exact hwaits
    obtain ⟨⟨env,hk⟩,hmade⟩ := hown
    exact ⟨env,hk,right_get (hinv.sts p env hk) hmade hf hresult⟩
  | getTLSA p i f pos left mx mxs mxLevel tlsLevel tlsState hpos hf h =>
    obtain ⟨found,hresult,rfl⟩ := Option.map_eq_some_iff.mp he
    rw [hpos] at hwaits
    obtain ⟨⟨env,hk⟩,hmade⟩ := hwaits
    exact ⟨env,hk,right_get (hinv.tlsa p env true hk) hmade hf hresult⟩
  | _ => cases he

theorem moved_pos : (r.moved st pos).pos = pos := by
  unfold Routine.moved
  split <;> rfl

theorem go_inv (hinv : Inv kind w) (hok : inTime kind w (.go domain st) = true)
    (hr : w.routines domain = some r) (hm : Moves kind w domain r m) :
    Inv kind (w.moved domain (r.moved st m.pos) m) := by
  obtain ⟨hsts,htlsa⟩ := moved_madeFor w domain (r.moved st m.pos) m
  refine ⟨fun p env hk => ?_,fun p env e hk => ?_,fun other r' hr' => ?_,fun e he => ?_⟩
  · rcases moved_sts w domain (r.moved st m.pos) m with heq | heq <;> rw [heq]
    · exact hinv.sts p env hk
    · exact right_prepare (hinv.sts p env hk)
  · rcases moved_tlsa w domain (r.moved st m.pos) m with heq | ⟨mx,heq⟩ <;> rw [heq]
    · exact hinv.tlsa p env e hk
    · exact right_prepare (hinv.tlsa p env e hk)
  · refine Waits.mono ?_ hsts htlsa
    simp only [World.moved,update_apply] at hr'
    split at hr'
    · rename_i heq
      cases hr'
      rw [heq,moved_pos]
      exact moves_waits hr hm hok
    · exact hinv.waits other r' hr'
  · rcases mem_append.mp he with he | he
    · exact hinv.fetched e he
    · exact moves_fetched hinv hr hm e (by simpa using he)

theorem update_all (Q : Nat → Shared ρ → Prop) {fields : Nat → Shared ρ} (h : ∀ q, Q q (fields q))
    (p : Nat) (hp : Q p s) (q : Nat) : Q q (update fields p s q) := by
  by_cases hqp : q = p
  · rw [hqp,update_self]
    exact hp
  · rw [update_of_ne hqp]
    exact h q

/-- Steps in time keep all futures right. -/
theorem step_inv (hinv : Inv kind w) (hok : inTime kind w a = true)
    (h : step kind policies w a = some w') : Inv kind w' := by
  cases a with
  | go domain st =>
    simp only [step,Option.bind_eq_bind,Option.bind_eq_some_iff] at h
    obtain ⟨r,hr,m,hm,h⟩ := h
    cases h
    exact go_inv hinv hok hr (moves_of_move hm)
  | fetchedPolicy p domain =>
    simp only [step] at h
    cases hk : kind p with
    | mtasts env =>
      rw [hk] at h
      dsimp only at h
      split at h
      · cases h
        have hright : ∀ env', kind p = .mtasts env' →
            Right env'.mtastsGet ((w.sts p).complete domain (env.mtastsGet domain)) := by
          intro env' hk'
          cases hk.symm.trans hk'
          exact right_complete (hinv.sts p env hk) hok
        refine ⟨update_all (fun q s => ∀ env, kind q = .mtasts env → Right env.mtastsGet s) hinv.sts p
          hright,hinv.tlsa,fun other r hr => ?_,hinv.fetched⟩
        have hmade := update_all (fun q s => ∀ i key, MadeFor (w.sts q) i key → MadeFor s i key)
          (fun _ _ _ hm => hm) p fun i key hm => madeFor_complete hm domain (env.mtastsGet domain)
        exact (hinv.waits other r hr).mono hmade fun _ _ _ hm => hm
      · cases h
    | _ =>
      rw [hk] at h
      cases h
  | fetchedTLSA p host =>
    simp only [step] at h
    cases hk : kind p with
    | dane env extResolver =>
      rw [hk] at h
      dsimp only at h
      split at h
      · cases h
        have hright : ∀ env' e, kind p = .dane env' e →
            Right (discoverTLSA env') ((w.tlsa p).complete host (discoverTLSA env host)) := by
          intro env' e hk'
          cases hk.symm.trans hk'
          exact right_complete (hinv.tlsa p env extResolver hk) hok
        refine ⟨hinv.sts,update_all (fun q s => ∀ env e, kind q = .dane env e →
          Right (discoverTLSA env) s) hinv.tlsa p hright,fun other r hr => ?_,hinv.fetched⟩
        have hmade := update_all (fun q s => ∀ i key, MadeFor (w.tlsa q) i key → MadeFor s i key)
          (fun _ _ _ hm => hm) p fun i key hm => madeFor_complete hm host (discoverTLSA env host)
        exact (hinv.waits other r hr).mono (fun _ _ _ hm => hm) hmade
      · cases h
    | _ =>
      rw [hk] at h
      cases h

/-- In a run whose steps are in time, every call of a policy gets what was fetched
for its own domain or host. -/
theorem timely_run_fetched (domains : List String) (acts : List Action) (w : World)
    (hok : Meets (step kind policies) (fun w a => inTime kind w a = true) (init policies domains) acts)
    (hrun : run (step kind policies) (init policies domains) acts = some w) :
    ∀ e ∈ w.consults, Fetched kind e := by
  have hinit : Inv kind (init policies domains) := by
    refine ⟨nofun,nofun,
      fun domain r hr => ?_,nofun⟩
    simp only [init] at hr
    split at hr
    · cases hr
      trivial
    · cases hr
  exact (run_invariant_of_meets (fun _ _ _ hi hok h => step_inv hi hok h) hinit hok hrun).fetched

def twoDomains : Remote.Security.Env :=
  { mtastsGet := fun domain =>
      if domain = "a.example" then .ok ⟨.enforce,["mx1.example"]⟩
      else .error (.leaf "mtasts: no policy" none)
    matchMX := fun policy mx => mx ∈ policy.mx
    checkCNAMEAD := fun host => .ok (true,host)
    authLookupCNAME := fun _ => .ok (false,"")
    authLookupTLSA := fun host =>
      if host = "mx1.example." then (true,[⟨3,1,1,"cert"⟩],none) else (true,[],none)
    isNotFound := fun _ => false
    verifyDANE := fun recs _ => .ok (recs ≠ []) }

def stsOnly : Nat → Kind := fun _ => .mtasts twoDomains

def daneOnly : Nat → Kind := fun _ => .dane twoDomains true

def otherFuture : List Action :=
  [.go "a.example" .prepareDomain,.go "b.example" .prepareDomain,.fetchedPolicy 0 "b.example",
    .go "a.example" .prepareDomain,.go "a.example" (.lookupMX (.ok (false,["mx2.example"],false))),
    .go "a.example" .record,.go "a.example" .checkMX,.go "a.example" (.get none)]

def lateRecords : List Action :=
  [.go "b.example" .prepareDomain,.go "b.example" .prepareDomain,
    .go "b.example" (.lookupMX (.ok (true,["mx1.example","mx2.example"],false))),
    .go "b.example" .record,.go "b.example" .checkMX,.go "b.example" .prepareConn,
    .go "b.example" .checkMX,.go "b.example" (.connect (.error (.leaf "connection refused" none))),
    .go "b.example" .record,.go "b.example" .checkMX,.go "b.example" .prepareConn,
    .go "b.example" .checkMX,.fetchedTLSA 0 "mx1.example.",
    .go "b.example" (.connect (.ok (.encrypted,{ handshakeComplete := true }))),
    .go "b.example" .checkConn,.go "b.example" (.get none)]

/-- A domain with an enforced policy is held to that of another domain, which has
none. And even with one domain an MX is held to the records of another MX. -/
theorem policies_mixed_up :
    (¬ ∀ (kind : Nat → Kind) (policies : List Nat) (domains : List String) (acts : List Action)
      (w : World), run (step kind policies) (init policies domains) acts = some w →
      ∀ e ∈ w.consults, Fetched kind e) ∧
    ¬ ∀ (kind : Nat → Kind) (policies : List Nat) (domain : String) (acts : List Action)
      (w : World), run (step kind policies) (init policies [domain]) acts = some w →
      ∀ e ∈ w.consults, Fetched kind e := by
  constructor
  · intro h
    have hall := h stsOnly [0] ["a.example","b.example"] otherFuture _ rfl
    obtain ⟨env,hk,hfound⟩ := hall _ mem_cons_self
    cases hk
    cases hfound
  · intro h
    have hall := h daneOnly [0] "b.example" lateRecords _ rfl
    obtain ⟨env,hk,hfound⟩ := hall _ mem_cons_self
    cases hk
    cases hfound

def both : Nat → Kind
  | 0 => .mtasts twoDomains
  | _ => .dane twoDomains true

def wholeDomain (domain mx : String) : List Action :=
  [.go domain .prepareDomain,.go domain .prepareDomain,.go domain .prepareDomain,
    .fetchedPolicy 0 domain,.go domain (.lookupMX (.ok (true,[mx],false))),
    .go domain .record,.go domain .checkMX,.go domain (.get none),.go domain .prepareConn,
    .go domain .checkMX,.go domain .prepareConn,.fetchedTLSA 1 (fqdn mx),.go domain .checkMX,
    .go domain (.connect (.ok (.authenticated,⟨true,true⟩))),.go domain .checkConn,
    .go domain (.get none),.go domain .checkConn,.go domain (.get none),.go domain .checkConn]

def oneByOne : List Action :=
  wholeDomain "a.example" "mx1.example" ++ wholeDomain "b.example" "mx2.example"

theorem domains_one_by_one : ∃ w,
    run (step both [0,1]) (init [0,1] ["a.example","b.example"]) oneByOne = some w ∧
      w.consults.length = 6 ∧ ∀ e ∈ w.consults, Fetched both e := by
  have hok : Meets (step both [0,1]) (fun w a => inTime both w a = true)
      (init [0,1] ["a.example","b.example"]) oneByOne := meets_of_checks (by decide +kernel)
  exact ⟨_,rfl,rfl,timely_run_fetched ["a.example","b.example"] oneByOne _ hok rfl⟩

end Madmail.Proofs.PolicyFutures
