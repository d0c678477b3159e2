import Madmail.Proofs.MXAttempts

namespace Madmail.Proofs.UsableMX
open Exterrors Madmail.Module Remote Smtpconn EndpointCache Lib RemoteSteps MXAttempts List

def trial (rt : Target) (net : Net) (cache : Option Cache) (policies : List Nat) (domain : String)
    (dnssecOk cacheOverride : Bool) : Trial :=
  { rt := rt
    net := net
    cache := cache
    policies := if cacheOverride then [] else policies
    domain := domain
    dnssecOk := dnssecOk }

def opening (rt : Target) (now : Int) (domain : String) (dnssecOk : Bool) : MxConn :=
  { c := fresh rt
    domain := domain
    dnssecOk := dnssecOk
    reuseLimit := rt.connReuseLimit
    lastUseAt := now }

section Newest
variable {t : Trial} {policies : List Nat} {cacheOverride : Bool}

def made : Outcome → Bool
  | .unmade => false
  | _ => true

def leaves (before : Bool) : Outcome → Bool
  | .unmade => before
  | .dropped => false
  | .refused c _ _ => (c.ask .quit).2.isSome
  | .established _ _ _ => true

/-- If a policy refuses the last connection that is made, its server takes QUIT. -/
def Quits (outcomes : List Outcome) : Prop :=
  ∀ c tlsErr e, (outcomes.filter made).getLast? = some (.refused c tlsErr e) →
    (c.ask .quit).2 = none

theorem foldl_leaves (before : Bool) (outcomes : List Outcome) :
    outcomes.foldl leaves before =
      (outcomes.filter made).getLast?.elim before (leaves false) := by
  induction outcomes generalizing before with
  | nil => rfl
  | cons o rest ih =>
    rw [foldl_cons,ih]
    cases o with
    | unmade => rfl
    | dropped | refused | established =>
      rw [filter_cons_of_pos rfl,getLast?_cons]
      cases (rest.filter made).getLast? with
      | none => rfl
      | some o => rfl

theorem quits_iff (hno : ∀ c mxLevel tlsLevel, Outcome.established c mxLevel tlsLevel ∉ outcomes) :
    Quits outcomes ↔ outcomes.foldl leaves false = false := by
  unfold Quits
  rw [foldl_leaves]
  cases hl : (outcomes.filter made).getLast? with
  | none => simp
  | some o =>
    cases o with
    | unmade | dropped | refused c tlsErr e => simp [leaves]
    | established c mxLevel tlsLevel =>
      have hmem := mem_filter.mp (mem_of_getLast? hl)
      exact absurd hmem.1 (hno c mxLevel tlsLevel)

theorem Fails.leaves (hp : t.policies = if cacheOverride then [] else policies)
    (h : Fails t policies cacheOverride record s records s') (hf : t.Fits s.1) :
    s'.1.c.cl.isSome = (t.outcomes record records).foldl leaves s.1.c.cl.isSome := by
  induction h with
  | nil record s => rfl
  | @cons record conn conn₁ lastErr s' mx rest e hnull h _ ih =>
    have hcomes := attemptMX_comes policies cacheOverride hp hf record mx
    rw [h] at hcomes
    rw [ih (hcomes.fits hf),Trial.outcomes,foldl_cons]
    generalize t.outcome record mx = o at hcomes
    congr 1
    cases hcomes with
    | unmade checks e => rfl
    | dropped checks e => rfl
    | refused checks c tlsErr e hc hfits => exact isSome_close hc

end Newest

section Opened
variable {rt : Target} {net : Net} {cache : Option Cache} {policies : List Nat} {now : Int}
  {domain : String} {dnssecOk cacheOverride : Bool} {records : List MX}

theorem opening_fits : (trial rt net cache policies domain dnssecOk cacheOverride).Fits
    (opening rt now domain dnssecOk) :=
  ⟨rfl,rfl,rfl⟩

theorem newConn_eq (hl : lookupMX rt net cache domain = .ok (dnssecOk,records,cacheOverride)) :
    newConn rt net cache policies now domain =
      (attemptMXs rt net cache policies cacheOverride 0 records
        (opening rt now domain dnssecOk) none).bind fun s =>
          if s.1.c.cl.isNone then .error (noUsableMX domain (s.2.getD C.errNilClient))
          else .ok s.1 := by
  rw [newConn,hl]
  unfold opening fresh
  dsimp only
  rcases attemptMXs rt net cache policies cacheOverride 0 records
    { c := { hostname := rt.hostname }, domain := domain, dnssecOk := dnssecOk,
      reuseLimit := rt.connReuseLimit, lastUseAt := now } none with e | ⟨conn,lastErr⟩
  all_goals rfl

/-- A connection of `newConn` is one that the last attempt has established, and there
is none if every attempt fails. -/
def Established (rt : Target) (net : Net) (cache : Option Cache) (policies : List Nat) (now : Int)
    (domain : String) : Prop :=
  (∀ conn, newConn rt net cache policies now domain = .ok conn →
    ∃ dnssecOk records cacheOverride,
      lookupMX rt net cache domain = .ok (dnssecOk,records,cacheOverride) ∧
      Uses (trial rt net cache policies domain dnssecOk cacheOverride) policies cacheOverride 0
        (opening rt now domain dnssecOk,none) records conn) ∧
  ∀ dnssecOk records cacheOverride,
    lookupMX rt net cache domain = .ok (dnssecOk,records,cacheOverride) →
    (∃ s, Fails (trial rt net cache policies domain dnssecOk cacheOverride) policies cacheOverride 0
      (opening rt now domain dnssecOk,none) records s) →
    ∃ e, newConn rt net cache policies now domain = .error e

theorem established_of_error (h : newConn rt net cache policies now domain = .error e) :
    Established rt net cache policies now domain := by
  refine ⟨fun conn hok => ?_,fun _ _ _ _ _ => ⟨e,h⟩⟩
  rw [h] at hok
  cases hok

theorem established_of_uses {s : MxConn × Option Err}
    (hl : lookupMX rt net cache domain = .ok (dnssecOk,records,cacheOverride))
    (hnew : newConn rt net cache policies now domain = .ok s.1)
    (hs : (trial rt net cache policies domain dnssecOk cacheOverride).Stops 0 records)
    (h : Uses (trial rt net cache policies domain dnssecOk cacheOverride) policies cacheOverride 0
      (opening rt now domain dnssecOk,none) records s.1) :
    Established rt net cache policies now domain := by
  constructor
  · intro conn hok
    rw [hnew] at hok
    cases hok
    exact ⟨dnssecOk,records,cacheOverride,hl,h⟩
  · intro dnssecOk' records' cacheOverride' hl' hfails
    rw [hl] at hl'
    cases hl'
    obtain ⟨s',hfails⟩ := hfails
    exact absurd hs (hfails.not_stops rfl opening_fits)

theorem established_of_fails
    (hl : lookupMX rt net cache domain = .ok (dnssecOk,records,cacheOverride))
    (hnew : newConn rt net cache policies now domain =
      if s.1.c.cl.isNone then .error (noUsableMX domain (s.2.getD C.errNilClient)) else .ok s.1)
    (h : Fails (trial rt net cache policies domain dnssecOk cacheOverride) policies cacheOverride 0
      (opening rt now domain dnssecOk,none) records s) :
    Established rt net cache policies now domain ↔
      Quits ((trial rt net cache policies domain dnssecOk cacheOverride).outcomes 0 records) := by
  have hno := h.not_stops rfl opening_fits
  have hleft : s.1.c.cl.isSome =
      ((trial rt net cache policies domain dnssecOk cacheOverride).outcomes 0 records).foldl
        leaves false := Fails.leaves rfl h opening_fits
  rw [quits_iff fun c mxLevel tlsLevel hmem => hno (.inr ⟨c,mxLevel,tlsLevel,hmem⟩),← hleft]
  cases hcl : s.1.c.cl with
  | none =>
    rw [hcl,Option.isNone_none,if_pos rfl] at hnew
    exact iff_of_true (established_of_error hnew) rfl
  | some cl =>
    rw [hcl,Option.isNone_some,if_neg Bool.false_ne_true] at hnew
    refine iff_of_false (fun hest => ?_) (by simp)
    obtain ⟨e,he⟩ := hest.2 dnssecOk records cacheOverride hl ⟨s,h⟩
    rw [hnew] at he
    cases he

end Opened

/-- `newConn` returns only connections that an attempt has established exactly if the
loop stops at a record, or the server of the last connection that was made takes the
QUIT that follows a refusal. -/
theorem established_iff (rt : Target) (net : Net) (cache : Option Cache) (policies : List Nat)
    (now : Int) (domain : String) :
    Established rt net cache policies now domain ↔
      ∀ dnssecOk records cacheOverride,
        lookupMX rt net cache domain = .ok (dnssecOk,records,cacheOverride) →
        (trial rt net cache policies domain dnssecOk cacheOverride).Stops 0 records ∨
        Quits ((trial rt net cache policies domain dnssecOk cacheOverride).outcomes 0 records) := by
  cases hl : lookupMX rt net cache domain with
  | error e =>
    have herr : newConn rt net cache policies now domain = .error e := by
      rw [newConn,hl]
    exact iff_of_true (established_of_error herr) nofun
  | ok found =>
    obtain ⟨dnssecOk,records,cacheOverride⟩ := found
    have hnew := @newConn_eq rt net cache policies now domain dnssecOk cacheOverride records hl
    have hended := @attemptMXs_ended (trial rt net cache policies domain dnssecOk cacheOverride)
      (opening rt now domain dnssecOk) policies cacheOverride rfl records 0 none opening_fits
    change Ended _ _ _ _ _ _ (attemptMXs rt net cache policies cacheOverride 0 records _ none)
      at hended
    generalize attemptMXs rt net cache policies cacheOverride 0 records
      (opening rt now domain dnssecOk) none = res at hnew hended
    have hcond : ∀ (X : Bool → List MX → Bool → Prop), (∀ a b c,
        (Except.ok (dnssecOk,records,cacheOverride) : Except Err (Bool × List MX × Bool)) =
          .ok (a,b,c) → X a b c) ↔ X dnssecOk records cacheOverride := by
      intro X
      refine ⟨fun h => h _ _ _ rfl,fun h a b c heq => ?_⟩
      cases heq
      exact h
    rw [hcond]
    cases hended with
    | null e h => exact iff_of_true (established_of_error hnew) (.inl (.inl h))
    | used s hcl hs h =>
      refine iff_of_true (established_of_uses hl ?_ hs h) (.inl hs)
      rw [hnew,Except.bind,if_neg]
      simp [Option.isNone_eq_false_iff.mpr hcl]
    | failed s h =>
      rw [or_iff_right (h.not_stops rfl opening_fits)]
      exact established_of_fails hl hnew h

def refusing : Policy :=
  { checkMX := fun _ _ _ _ => .ok .none
    checkConn := fun _ _ _ _ _ => .error (.leaf "refused" none) }

def impolite : Server :=
  { serverWith [] with
    reply := fun _ cmd => if cmd = .quit then some (.leaf "use of closed connection" none) else none }

/-- The only attempt fails, and its connection is returned. -/
theorem refused_connection_returned :
    ¬Established .plain (Net.plain refusing impolite) none [0] 0 "example.org" := by
  intro h
  obtain ⟨e,he⟩ := h.2 true [⟨"example.org",10⟩] false rfl
    ⟨_,.cons (by decide) rfl (.nil _ _)⟩
  cases he

end Madmail.Proofs.UsableMX
