import Madmail.Queue.Delivery
import Mathlib.Data.List.Induction

namespace Madmail.Proofs.PermanentFailure
open Exterrors Madmail.Module Queue List

abbrev Reports := List (String × Err)

def refused (tgt : Target) : Nat → List String → Reports
  | _, [] => []
  | k, rcpt :: rest =>
    match tgt.addRcpt k with
    | some err => (rcpt,err) :: refused tgt (k + 1) rest
    | none => refused tgt (k + 1) rest

def accepted (tgt : Target) (toRcpts : List String) : List String :=
  (addRcpts tgt 0 toRcpts (fun _ => none) []).2

def aboutAll (rcpts : List String) : Option Err → Reports
  | none => []
  | some err => rcpts.map (fun rcpt => (rcpt,err))

def ofBody (accepted : List String) : Body → Reports
  | .atomic err => aboutAll accepted err
  | .nonAtomic statuses => statuses.filterMap (fun st => st.2.map (fun err => (st.1,err)))

def commits (accepted : List String) (errs : Errs) : Bool :=
  !accepted.all (fun rcpt => (errs rcpt).isSome)

def record (errs : Errs) (reports : Reports) : Errs :=
  reports.foldl (fun errs report => Function.update errs report.1 (some report.2)) errs

/-- The errors that the target reports in the course of one attempt, in order:
an error of `Start`, of the whole body or of `Commit` is about all the
recipients it is returned for. -/
def reports (tgt : Target) (toRcpts : List String) : Reports :=
  match tgt.start with
  | some err => aboutAll toRcpts (some err)
  | none =>
    let early := refused tgt 0 toRcpts ++ if accepted tgt toRcpts = [] then []
      else ofBody (accepted tgt toRcpts) tgt.body
    if commits (accepted tgt toRcpts) (record (fun _ => none) early) then
      early ++ aboutAll (accepted tgt toRcpts) tgt.commit
    else early

def Permanent (err : Err) : Prop := isTemporaryOrUnspec err = false

theorem record_append :
    record errs (early ++ late) = record (record errs early) late := foldl_append

theorem record_last (hlate : ∀ e, (rcpt,e) ∉ late) :
    record errs (early ++ (rcpt,err) :: late) rcpt = some err := by
  rw [record_append]
  simp only [record,foldl_cons]
  induction late using List.reverseRecOn with
  | nil => simp
  | append_singleton late report ih =>
    have hne : rcpt ≠ report.1 := by
      rintro rfl
      exact hlate report.2 (by simp)
    rw [foldl_append,foldl_cons,foldl_nil,Function.update_of_ne hne]
    exact ih fun e he => hlate e (by simp [he])

theorem exists_last {reports : Reports} (h : (rcpt,err) ∈ reports) :
    ∃ early e late, reports = early ++ (rcpt,e) :: late ∧ (∀ e', (rcpt,e') ∉ late) ∧
      ((rcpt,err) ∈ early ∨ err = e) := by
  induction reports using List.reverseRecOn with
  | nil => cases h
  | append_singleton early report ih =>
    obtain ⟨r,e⟩ := report
    by_cases hr : rcpt = r
    · subst hr
      refine ⟨early,e,[],rfl,by simp,?_⟩
      simpa using h
    · have hmem : (rcpt,err) ∈ early := by simpa [hr] using h
      obtain ⟨early',e',late,rfl,hlate,herr⟩ := ih hmem
      exact ⟨early',e',late ++ [(r,e)],by simp,by simpa [hr] using hlate,herr⟩

theorem addRcpts_errs (tgt : Target) (k : Nat) (rcpts : List String) (errs : Errs)
    (acc : List String) :
    (addRcpts tgt k rcpts errs acc).1 = record errs (refused tgt k rcpts) := by
  induction rcpts generalizing k errs acc with
  | nil => rfl
  | cons rcpt rest ih =>
    unfold addRcpts refused
    cases tgt.addRcpt k with
    | some err => exact ih (k + 1) _ acc
    | none => exact ih (k + 1) errs _

theorem record_aboutAll (errs : Errs) (rcpts : List String) (err : Err) :
    record errs (aboutAll rcpts (some err)) = expandToPartialErr errs rcpts err := by
  simp only [record,aboutAll,foldl_map,expandToPartialErr]

theorem record_ofBody (errs : Errs) (acc : List String) (body : Body) :
    record errs (ofBody acc body) = bodyErrs acc errs body := by
  cases body with
  | atomic err =>
    cases err with
    | none => rfl
    | some err => exact record_aboutAll errs acc err
  | nonAtomic statuses =>
    induction statuses generalizing errs with
    | nil => rfl
    | cons st rest ih =>
      obtain ⟨rcpt,_ | err⟩ := st
      · exact ih errs
      · exact ih (setStatus errs rcpt (some err))

theorem deliver_errs (tgt : Target) (toRcpts : List String) :
    (deliver tgt toRcpts).errs = record (fun _ => none) (reports tgt toRcpts) := by
  unfold deliver reports
  cases tgt.start with
  | some err => exact (record_aboutAll _ toRcpts err).symm
  | none =>
    have herrs := addRcpts_errs tgt 0 toRcpts (fun _ => none) []
    rcases hr : addRcpts tgt 0 toRcpts (fun _ => none) [] with ⟨errs,acc⟩
    have hacc : accepted tgt toRcpts = acc := by rw [accepted,hr]
    rw [hr] at herrs
    dsimp only at herrs ⊢
    rw [hacc]
    cases acc with
    | nil => simp [commits,herrs]
    | cons first rest =>
      have hbody : record (fun _ => none)
          (refused tgt 0 toRcpts ++ ofBody (first :: rest) tgt.body) =
          bodyErrs (first :: rest) errs tgt.body := by
        rw [record_append,record_ofBody,herrs]
      simp only [isEmpty_cons,Bool.false_eq_true,↓reduceIte,reduceCtorEq,commits,hbody]
      cases hall : (first :: rest).all
          (fun rcpt => (bodyErrs (first :: rest) errs tgt.body rcpt).isSome) with
      | true => simp [hbody]
      | false =>
        cases tgt.commit with
        | none => simp [aboutAll,hbody]
        | some err =>
          simp only [Bool.false_eq_true,↓reduceIte,Bool.not_false]
          rw [record_append,hbody,record_aboutAll]

theorem split_permanent (he : errs rcpt = some err) (hp : Permanent err) (rcpts : List String)
    (acc : Split) :
    (rcpt ∈ (rcpts.foldl (splitRcpt maxTries errs) acc).newRcpts ↔ rcpt ∈ acc.newRcpts) ∧
    (rcpt ∈ (rcpts.foldl (splitRcpt maxTries errs) acc).failedRcpts ↔
      rcpt ∈ acc.failedRcpts ∨ rcpt ∈ rcpts) ∧
    (rcpts.foldl (splitRcpt maxTries errs) acc).rcptErrs rcpt =
      if rcpt ∈ rcpts then some (toSMTPErr err) else acc.rcptErrs rcpt := by
  induction rcpts generalizing acc with
  | nil => simp
  | cons r rest ih =>
    obtain ⟨hnew,hfailed,herr⟩ := ih (splitRcpt maxTries errs acc r)
    simp only [foldl_cons]
    rw [hnew,hfailed,herr]
    by_cases h : rcpt = r
    · subst h
      have hstep : splitRcpt maxTries errs acc rcpt = acc.markFailed rcpt err := by
        simp [splitRcpt,he,show isTemporaryOrUnspec err = false from hp]
      simp [hstep,Split.markFailed]
    · unfold splitRcpt
      cases errs r with
      | none => simp [Split.markDelivered,h]
      | some e =>
        dsimp only
        split
        · simp [Split.markFailed,h]
        · simp [Split.requeue,h]

/-- A permanent error that the target reports for a recipient is the end of it:
`deliver` returns a permanent error, with which the recipient goes into the DSN,
and no further attempt is made for it. -/
def PermanentIsFinal (maxTries now : Int) (tgt : Target) (m : QueueMetadata) : Prop :=
  ∀ rcpt ∈ m.toRcpts, ∀ err, (rcpt,err) ∈ reports tgt m.toRcpts → Permanent err →
    ∃ err', (deliver tgt m.toRcpts).errs rcpt = some err' ∧ Permanent err' ∧
      rcpt ∈ (tryDelivery maxTries now tgt m).dsn ∧
      (tryDelivery maxTries now tgt m).rcptErrs rcpt = some (toSMTPErr err') ∧
      ∀ next, (tryDelivery maxTries now tgt m).next = some next → rcpt ∉ next.toRcpts

/-- The last that is reported about the recipient is a temporary error, after a
permanent one. -/
def Overruled (reports : Reports) (rcpt : String) : Prop :=
  ∃ early err late, reports = early ++ (rcpt,err) :: late ∧ ¬ Permanent err ∧
    (∀ e, (rcpt,e) ∉ late) ∧ ∃ e, (rcpt,e) ∈ early ∧ Permanent e

theorem permanent_final_of_errs (hmem : rcpt ∈ m.toRcpts)
    (he : (deliver tgt m.toRcpts).errs rcpt = some err) (hp : Permanent err) :
    rcpt ∈ (tryDelivery maxTries now tgt m).dsn ∧
      (tryDelivery maxTries now tgt m).rcptErrs rcpt = some (toSMTPErr err) ∧
      ∀ next, (tryDelivery maxTries now tgt m).next = some next → rcpt ∉ next.toRcpts := by
  obtain ⟨hnew,hfailed,herr⟩ := @split_permanent _ _ maxTries _ he hp m.toRcpts
    { rcptErrs := m.rcptErrs, triesCount := m.triesCount, newRcpts := [], failedRcpts := [],
      delivered := [], smallestTriesCount := 999999 }
  refine ⟨hfailed.mpr (Or.inr hmem),herr.trans (if_pos hmem),fun next hnext hin => ?_⟩
  simp only [tryDelivery] at hnext
  split at hnext
  · cases hnext
  · cases hnext
    exact absurd (hnew.mp hin) (by simp)

/-- Permanent failures are final exactly in the attempts in which no recipient
has a temporary error reported last, after a permanent one. -/
theorem permanent_final_iff (maxTries now : Int) (tgt : Target) (m : QueueMetadata) :
    PermanentIsFinal maxTries now tgt m ↔
      ∀ rcpt ∈ m.toRcpts, ¬ Overruled (reports tgt m.toRcpts) rcpt := by
  constructor
  · rintro hfinal rcpt hmem ⟨early,err,late,hreports,htemp,hlate,e,he,hperm⟩
    obtain ⟨err',herrs,hperm',_⟩ := hfinal rcpt hmem e (by simp [hreports,he]) hperm
    rw [deliver_errs,hreports,record_last hlate] at herrs
    cases herrs
    exact htemp hperm'
  · intro hnot rcpt hmem err hin hperm
    obtain ⟨early,e,late,hreports,hlate,herr⟩ := exists_last hin
    have herrs : (deliver tgt m.toRcpts).errs rcpt = some e := by
      rw [deliver_errs,hreports,record_last hlate]
    have hlast : Permanent e := by
      rcases herr with herr | rfl
      · by_contra htemp
        exact hnot rcpt hmem ⟨early,e,late,hreports,htemp,hlate,err,herr,hperm⟩
      · exact hperm
    exact ⟨e,herrs,hlast,permanent_final_of_errs hmem herrs hlast⟩

/-- A target that takes two recipients, has no such mailbox for the first, and
then can not commit for the moment. -/
def brokenCommit : Target :=
  { start := none
    addRcpt := fun _ => none
    body := .nonAtomic [("a",some (.leaf "no such user" (some false))),("b",none)]
    commit := some (.leaf "try again later" (some true)) }

/-- The error of `Commit` hides that the first recipient does not exist. -/
theorem commit_error_hides_permanent :
    ¬ ∀ (maxTries now : Int) (tgt : Target) (m : QueueMetadata),
      PermanentIsFinal maxTries now tgt m := by
  intro h
  have hfinal := h 20 0 brokenCommit
    (["a","b"].foldl Queue.addRcpt (newDelivery { id := "m1" } "ann@example.org" 0)) "a"
    (by decide) (.leaf "no such user" (some false)) (by decide) rfl
  obtain ⟨err',herrs,hperm,_⟩ := hfinal
  have hcommit : some (Err.leaf "try again later" (some true)) = some err' := herrs
  cases hcommit
  exact absurd hperm (by unfold Permanent; decide)

end Madmail.Proofs.PermanentFailure
