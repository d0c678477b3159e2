import Madmail.Lib.Runs
import Madmail.Proofs.QuotaStore
import Madmail.Storage.Accounts

namespace Madmail.Proofs.Blocklist
open Lib Exterrors Imapsql Accounts QuotaStore Function

section Frames
variable (n : Names) (c : Calls) (now : Int) (s : Storage)

@[simp] theorem ensureRow_users (f : Faults) (u : String) :
    (s.ensureRow f now u).users = s.users := by
  unfold Storage.ensureRow
  repeat' split
  all_goals rfl

@[simp] theorem ensureRow_blocked (f : Faults) (u : String) :
    (s.ensureRow f now u).blocked = s.blocked := by
  unfold Storage.ensureRow
  repeat' split
  all_goals rfl

theorem createIMAPAcct_users (a : String) :
    (createIMAPAcct n c now s a).1.users =
      if c.back.isSome then s.users else update s.users (n.toLower a) true := by
  unfold createIMAPAcct Storage.createIMAPAcct Calls.faults
  by_cases hu : s.users (n.toLower a) = true
  · simp [hu]
  · cases c.back <;> simp [hu,Storage.addUser]

theorem createIMAPAcct_blocked (a : String) :
    (createIMAPAcct n c now s a).1.blocked = s.blocked := by
  unfold createIMAPAcct Storage.createIMAPAcct
  split
  · rfl
  · simp [Storage.addUser]

theorem deleteIMAPAcct_users (h : (s.deleteIMAPAcct f u a).users key = true) :
    s.users key = true := by
  have hrow : (if f.write then s else s.deleteRow u).users = s.users := by
    split <;> rfl
  unfold Storage.deleteIMAPAcct at h
  generalize (if f.write then s else s.deleteRow u) = t at hrow h
  dsimp only at h
  split at h
  · rwa [hrow] at h
  · by_cases hk : key = a
    · simp [Storage.deleteUser,hk] at h
    · simpa [Storage.deleteUser,hk,hrow] using h

theorem deleteIMAPAcct_blocked : (s.deleteIMAPAcct f u a).blocked = s.blocked := by
  have hrow : (if f.write then s else s.deleteRow u).blocked = s.blocked := by
    split <;> rfl
  unfold Storage.deleteIMAPAcct
  generalize (if f.write then s else s.deleteRow u) = t at hrow
  dsimp only
  split <;> exact hrow

theorem deleteAccount_users (h : (s.deleteAccount f u a).users key = true) :
    s.users key = true := by
  apply deleteIMAPAcct_users s (f := f) (u := u) (a := a)
  unfold Storage.deleteAccount at h
  cases hb : f.block <;> cases hw : f.write <;> simpa [hb,hw,Storage.deleteRow] using h

theorem deleteAccount_blocked :
    (s.deleteAccount f u a).blocked =
      if f.block then s.blocked else update s.blocked u true := by
  unfold Storage.deleteAccount
  cases f.block <;> cases f.write <;> simp [Storage.deleteRow,deleteIMAPAcct_blocked]

theorem createIMAPAcct_created (a key : String) (hbefore : s.users key = false)
    (h : (createIMAPAcct n c now s a).1.users key = true) : n.toLower a = key ∧ c.back = none := by
  rw [createIMAPAcct_users] at h
  cases hback : c.back with
  | some err =>
    simp [hback,hbefore] at h
  | none =>
    refine ⟨?_,rfl⟩
    by_contra hne
    simp [hback,update_of_ne (Ne.symm hne),hbefore] at h

theorem login_created (hbefore : s.users key = false)
    (h : (getOrCreateIMAPAcct n c now s username).1.users key = true) :
    ∃ a, n.toLower a = key ∧ c.back = none ∧ n.authNormalize username = .ok a ∧
      c.jitEnabled = .ok true ∧ (isBlocked c s a).1 = false := by
  have hold : s.users key ≠ true := by simp [hbefore]
  unfold getOrCreateIMAPAcct Storage.getOrCreateIMAPAcct Calls.faults at h
  split at h
  · exact absurd h hold
  rename_i a hname
  split at h
  · exact absurd h hold
  rename_i jitEnabled hjit
  dsimp only at h
  split at h
  · rename_i hon
    split at h
    · exact absurd h hold
    rename_i hopen
    obtain ⟨hblocked,hback⟩ := not_or.mp hopen
    refine ⟨a,?_,by simpa using hback,hname,hon ▸ hjit,by simpa [isBlocked] using hblocked⟩
    by_contra hne
    refine hold ?_
    simpa [Storage.addUser,update_of_ne (Ne.symm hne)] using h
  · split at h
    · exact absurd h hold
    · exact absurd (by simpa using h) hold

theorem addRcpt_created (hbefore : s.users key = false)
    (h : (addRcpt n isSer c now s d rcptTo).1.users key = true) :
    ∃ a, n.toLower a = key ∧ c.back = none ∧ n.deliveryNormalize rcptTo = .ok a ∧
      c.jitEnabled = .ok true ∧ d.addedRcpts.any (fun r => r.1 == a) = false := by
  have hold : s.users key ≠ true := by simp [hbefore]
  unfold addRcpt at h
  split at h
  · exact absurd h hold
  rename_i a hname
  split at h
  · exact absurd h hold
  rename_i hnew
  -- the mail store's own AddRcpt only reads the accounts
  have hacct : (ensureAccount n c now s a).users key = true := by
    dsimp only at h
    repeat' split at h
    all_goals exact h
  unfold ensureAccount at hacct
  split at hacct
  · rename_i hjit
    obtain ⟨hkey,hback⟩ := createIMAPAcct_created n c now s a key hbefore hacct
    exact ⟨a,hkey,hback,hname,hjit,Bool.eq_false_iff.mpr hnew⟩
  · exact absurd hacct hold
  · exact absurd hacct hold

end Frames

section Steps
variable (n : Names) (isSer : Err → Bool) (w : World) (e : Event)

/-- The account that an operation has the mail store create if it is not there,
under the name that is normalized for the operation. -/
def Registers (a : String) : Prop :=
  e.calls.back = none ∧
  match e.act with
  | .createIMAPAcct accountName => accountName = a
  | .login username =>
    n.authNormalize username = .ok a ∧ e.calls.jitEnabled = .ok true ∧
    (isBlocked e.calls w.store a).1 = false
  | .addRcpt i rcptTo =>
    n.deliveryNormalize rcptTo = .ok a ∧ e.calls.jitEnabled = .ok true ∧
    (w.deliveries i).addedRcpts.any (fun r => r.1 == a) = false
  | _ => False

/-- An operation that registers a name leaves its account there, and no other
new one. -/
theorem users_of_registers (h : Registers n w e a) :
    (next n isSer w e).store.users = update w.store.users (n.toLower a) true := by
  obtain ⟨act,calls,now⟩ := e
  obtain ⟨hback,h⟩ := h
  dsimp only at hback
  cases act with
  | createIMAPAcct accountName =>
    subst h
    simp [next,step,withStore,createIMAPAcct_users,hback]
  | login username =>
    obtain ⟨hname,hjit,hblocked⟩ := h
    dsimp only at hjit hblocked
    have hfree : ¬ (calls.isBlocked = none ∧ w.store.blocked a = true) := by
      simpa [isBlocked] using hblocked
    simp [next,step,withStore,getOrCreateIMAPAcct,Storage.getOrCreateIMAPAcct,Calls.faults,hname,
      hjit,hback,hfree,Storage.addUser]
  | addRcpt i rcptTo =>
    obtain ⟨hname,hjit,hnew⟩ := h
    dsimp only at hjit
    have hacct : (ensureAccount n calls now w.store a).users =
        update w.store.users (n.toLower a) true := by
      simp [ensureAccount,hjit,createIMAPAcct_users,hback]
    cases hadd : calls.backAddRcpt with
    | some err | none => simp [next,step,addRcpt,hname,hnew,hadd,hacct]
  | _ => exact h.elim

theorem registers_of_created (hbefore : w.store.users key = false)
    (hafter : (next n isSer w e).store.users key = true) :
    ∃ a, n.toLower a = key ∧ Registers n w e a := by
  have hold : w.store.users key ≠ true := by simp [hbefore]
  obtain ⟨act,calls,now⟩ := e
  cases act with
  | start i => exact absurd hafter hold
  | commit d =>
    obtain ⟨_,_,_,hd⟩ := commit_frame w.store d
    exact absurd (by simpa [next,step,hd] using hafter) hold
  | createIMAPAcct accountName =>
    obtain ⟨hkey,hback⟩ := createIMAPAcct_created n calls now w.store accountName key hbefore hafter
    exact ⟨accountName,hkey,hback,rfl⟩
  | login username => exact login_created n calls now w.store hbefore hafter
  | addRcpt i rcptTo =>
    exact addRcpt_created n calls now w.store hbefore hafter
  | deleteIMAPAcct accountName =>
    exact absurd (deleteIMAPAcct_users w.store hafter) hold
  | deleteAccount username =>
    exact absurd (deleteAccount_users w.store hafter) hold
  | blockUser username =>
    refine absurd ?_ hold
    cases hb : calls.block <;> simpa [next,step,withStore,blockUser,hb] using hafter
  | unblockUser username =>
    refine absurd ?_ hold
    cases hb : calls.block <;> simpa [next,step,withStore,unblockUser,hb] using hafter

theorem blocked_next (hb : w.store.blocked u = true) (hact : e.act ≠ .unblockUser u) :
    (next n isSer w e).store.blocked u = true := by
  obtain ⟨act,calls,now⟩ := e
  cases act with
  | start i => exact hb
  | commit d =>
    obtain ⟨_,_,_,hd⟩ := commit_frame w.store d
    simpa [next,step,hd] using hb
  | createIMAPAcct accountName =>
    simpa [next,step,withStore,createIMAPAcct_blocked] using hb
  | login username =>
    simp only [next,step,withStore,getOrCreateIMAPAcct,Storage.getOrCreateIMAPAcct]
    repeat' split
    all_goals simpa [Storage.addUser] using hb
  | addRcpt i rcptTo =>
    have hacct : ∀ a, (ensureAccount n calls now w.store a).blocked u = true := by
      intro a
      unfold ensureAccount
      split
      · simpa [createIMAPAcct_blocked] using hb
      · exact hb
      · exact hb
    simp only [next,step,addRcpt]
    repeat' split
    all_goals first | exact hb | exact hacct _
  | deleteIMAPAcct accountName =>
    simpa [next,step,withStore,deleteIMAPAcct,deleteIMAPAcct_blocked] using hb
  | deleteAccount username =>
    simp only [next,step,withStore,deleteAccount,deleteAccount_blocked]
    split
    · exact hb
    · by_cases hu : u = username
      · simp [hu]
      · simpa [hu] using hb
  | blockUser username =>
    cases hc : calls.block with
    | some err => simpa [next,step,withStore,blockUser,hc] using hb
    | none =>
      by_cases hu : u = username
      · simp [next,step,withStore,blockUser,hc,hu]
      · simpa [next,step,withStore,blockUser,hc,hu] using hb
  | unblockUser username =>
    have hu : u ≠ username := fun h => hact (by rw [h])
    cases hc : calls.block with
    | some err => simpa [next,step,withStore,unblockUser,hc] using hb
    | none => simpa [next,step,withStore,unblockUser,hc,hu] using hb

theorem blocked_of_block (hact : e.act = .deleteAccount u ∨ e.act = .blockUser u)
    (hok : (step n isSer w e).2 = none) : (next n isSer w e).store.blocked u = true := by
  obtain ⟨act,calls,now⟩ := e
  rcases hact with rfl | rfl
  · cases hc : calls.block with
    | some err => simp [step,withStore,deleteAccount,hc] at hok
    | none => simp [next,step,withStore,deleteAccount,deleteAccount_blocked,Calls.faults,hc]
  · cases hc : calls.block with
    | some err => simp [step,withStore,blockUser,hc] at hok
    | none => simp [next,step,withStore,blockUser,hc]

end Steps

def Creates (n : Names) (isSer : Err → Bool) (key : String) (w : World) (e : Event) : Prop :=
  w.store.users key = false ∧ (next n isSer w e).store.users key = true

/-- What keeps an operation from making the account of the blocked name `u`: the
account is still there, the mail store fails, or the operation does not register
a name that the mail store spells like `u`. A login with just-in-time
registration on is stopped only under `u` itself, or another blocked name, and
only if the query of the block list works; nothing stops a delivery. -/
def AccountOK (n : Names) (u : String) (w : World) (e : Event) : Prop :=
  w.store.users (n.toLower u) = true ∨ e.calls.back ≠ none ∨
  match e.act with
  | .createIMAPAcct accountName => n.toLower accountName ≠ n.toLower u
  | .login username =>
    e.calls.jitEnabled = .ok true →
    ∀ a, n.authNormalize username = .ok a → n.toLower a = n.toLower u →
      (a = u ∨ w.store.blocked a = true) ∧ e.calls.isBlocked = none
  | .addRcpt i rcptTo =>
    e.calls.jitEnabled = .ok true →
    ∀ a, n.deliveryNormalize rcptTo = .ok a → n.toLower a = n.toLower u →
      (w.deliveries i).addedRcpts.any (fun r => r.1 == a) = true
  | _ => True

theorem registers_iff_not_accountOK (hb : w.store.blocked u = true) :
    (w.store.users (n.toLower u) = false ∧ ∃ a, n.toLower a = n.toLower u ∧ Registers n w e a) ↔
      ¬ AccountOK n u w e := by
  obtain ⟨act,calls,now⟩ := e
  simp only [AccountOK,Registers,not_or,Bool.not_eq_true,ne_eq,not_not,and_congr_right_iff]
  intro _
  cases act with
  | createIMAPAcct accountName =>
    constructor
    · rintro ⟨a,ha,hback,rfl⟩
      exact ⟨hback,not_not.mpr ha⟩
    · rintro ⟨hback,ha⟩
      exact ⟨accountName,not_not.mp ha,hback,rfl⟩
  | login username =>
    constructor
    · rintro ⟨a,ha,hback,hname,hjit,hnot⟩
      refine ⟨hback,fun h => ?_⟩
      obtain ⟨hblocked,hquery⟩ := h hjit a hname ha
      have : w.store.blocked a = true := hblocked.elim (fun he => he ▸ hb) (fun h => h)
      simp [isBlocked,hquery,this] at hnot
    · rintro ⟨hback,h⟩
      push Not at h
      obtain ⟨hjit,a,hname,ha,hnot⟩ := h
      refine ⟨a,ha,hback,hname,hjit,?_⟩
      by_contra hblocked
      simp only [isBlocked,Bool.not_eq_false,Bool.and_eq_true,Option.isNone_iff_eq_none] at hblocked
      exact hnot (.inr hblocked.2) hblocked.1
  | addRcpt i rcptTo =>
    constructor
    · rintro ⟨a,ha,hback,hname,hjit,hnew⟩
      refine ⟨hback,fun h => ?_⟩
      rw [h hjit a hname ha] at hnew
      cases hnew
    · rintro ⟨hback,h⟩
      push Not at h
      obtain ⟨hjit,a,hname,ha,hnew⟩ := h
      exact ⟨a,ha,hback,hname,hjit,Bool.eq_false_iff.mpr hnew⟩
  | _ => simp

theorem not_creates_iff (hb : w.store.blocked u = true) :
    ¬ Creates n isSer (n.toLower u) w e ↔ AccountOK n u w e := by
  rw [not_iff_comm,← registers_iff_not_accountOK hb,Creates]
  constructor
  · rintro ⟨hbefore,a,ha,hreg⟩
    refine ⟨hbefore,?_⟩
    rw [users_of_registers n isSer w e hreg,ha,update_self]
  · rintro ⟨hbefore,hafter⟩
    exact ⟨hbefore,registers_of_created n isSer w e hbefore hafter⟩

/-- After a name is blocked, no operation makes its account until the name is
unblocked, exactly when every operation in between meets the condition. -/
theorem blocked_account_stays_gone_iff (n : Names) (isSer : Err → Bool) (w : World) (e : Event)
    (es : List Event) (u : String) (hact : e.act = .deleteAccount u ∨ e.act = .blockUser u)
    (hok : (step n isSer w e).2 = none) (hes : ∀ f ∈ es, f.act ≠ .unblockUser u) :
    Guarded (next n isSer) (fun w f => ¬ Creates n isSer (n.toLower u) w f)
        (next n isSer w e) es ↔
      Guarded (next n isSer) (AccountOK n u) (next n isSer w e) es :=
  guarded_congr_of_inv (I := fun w => w.store.blocked u = true)
    (fun w f hb hf => blocked_next n isSer w f hb hf)
    (fun _ _ hb _ => not_creates_iff hb)
    (blocked_of_block n isSer w e hact hok) hes

def plainNames : Names where
  toLower := String.toLower
  authNormalize := .ok
  deliveryNormalize := .ok

def working : Calls := { jitEnabled := .ok true }

def emptyWorld : World := ⟨QuotaStore.emptyServer,fun _ => {}⟩

def deleteAnn : Event := ⟨.deleteAccount "ann",working,1⟩

/-- The owner of a deleted account logs in again, and is turned away. -/
theorem login_stays_gone :
    Guarded (next plainNames fun _ => false)
      (fun w f => ¬ Creates plainNames (fun _ => false) (plainNames.toLower "ann") w f)
      (next plainNames (fun _ => false) emptyWorld deleteAnn)
      [⟨.login "ann",working,2⟩] := by
  refine (blocked_account_stays_gone_iff plainNames (fun _ => false) emptyWorld deleteAnn
    [⟨.login "ann",working,2⟩] "ann" (.inl rfl) rfl (by simp)).mpr ⟨?_,trivial⟩
  refine .inr (.inr fun _ a ha _ => ⟨.inl ?_,rfl⟩)
  exact (Except.ok.inj ha).symm

/-- A message to a deleted account brings it back. -/
theorem delivery_recreates_blocked_account :
    ¬ ∀ (n : Names) (isSer : Err → Bool) (w : World) (e : Event) (es : List Event) (u : String),
      (e.act = .deleteAccount u ∨ e.act = .blockUser u) → (step n isSer w e).2 = none →
      (∀ f ∈ es, f.act ≠ .unblockUser u) →
      Guarded (next n isSer) (fun w f => ¬ Creates n isSer (n.toLower u) w f)
        (next n isSer w e) es := by
  intro h
  refine (h plainNames (fun _ => false) emptyWorld deleteAnn
    [⟨.addRcpt 0 "ann",working,2⟩] "ann" (.inl rfl) rfl (by simp)).1 ⟨rfl,?_⟩
  have hreg : Registers plainNames (next plainNames (fun _ => false) emptyWorld deleteAnn)
      ⟨.addRcpt 0 "ann",working,2⟩ "ann" := ⟨rfl,rfl,rfl,rfl⟩
  rw [users_of_registers plainNames (fun _ => false) _ _ hreg,update_self]

end Madmail.Proofs.Blocklist
