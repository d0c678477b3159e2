import Madmail.Proofs.StatusWaiting

namespace Madmail.Proofs.StatusOnce
open Exterrors Madmail.Module Msgpipeline Msgpipeline.Delivery StatusWaiting

variable {τ δ : Type}

def statusCount (statuses : List Status) (rcpt : String) : Nat := (reported statuses).count rcpt

/-- However the targets answer, no accepted recipient gets two statuses, if and
only if none of them waits at two places. -/
theorem one_status_iff (final : Targets τ δ) (k : Accepts final) (n : Nat) (d : Pipeline (Tgt τ n))
    (msgMeta : MsgMetadata) (mailFrom : String) (rcpts : List String)
    (tx : Transaction (Tgt τ n) (Dlv τ δ n))
    (htx : transaction (nested final n) d msgMeta mailFrom rcpts = some tx) (header : Header)
    (body : String) :
    (∀ a : Answers δ, a.Valid k → ∀ rcpt ∈ tx.accepted,
        statusCount (tx.dd.bodyNonAtomic (nested (answering final a) n) tx.msgMeta header
          body).statuses rcpt ≤ 1) ↔
      ∀ rcpt ∈ tx.accepted, (waitingIn k n tx.dd tx.msgMeta header body).count rcpt ≤ 1 := by
  constructor
  · intro h rcpt hmem
    have hworst := h k.failing failing_valid rcpt hmem
    rw [statusCount,reported_failing k htx] at hworst
    exact hworst
  · intro h a ha rcpt hmem
    have hle := Multiset.count_le_of_le rcpt (reported_le ha htx tx.msgMeta header body)
    exact hle.trans (h rcpt hmem)

/-- One target, and recipients that stand for themselves. -/
theorem one_status_single_target :
    ∃ tx : Transaction Unit (List String),
      transaction mailboxes Pipeline.plain { id := "m1" } "eve@example.org"
        ["ann@example.org","bob@example.org"] = some tx ∧
      tx.accepted = ["ann@example.org","bob@example.org"] ∧
      ∀ a : Answers (List String), a.Valid mailboxesAccept → ∀ rcpt ∈ tx.accepted,
        statusCount (tx.dd.bodyNonAtomic (answering mailboxes a) tx.msgMeta []
          "hello").statuses rcpt ≤ 1 := by
  refine ⟨_,rfl,by decide,?_⟩
  exact (one_status_iff mailboxes mailboxesAccept 0 Pipeline.plain { id := "m1" }
    "eve@example.org" ["ann@example.org","bob@example.org"] _ rfl [] "hello").mpr (by decide +kernel)

def twoTargets : Pipeline Unit := { Pipeline.plain with blocks := fun _ => { targets := [0,1] } }

/-- A recipient that has two targets is reported by both of them. -/
theorem two_targets_report_twice :
    ¬ ∀ (final : Targets Unit (List String)) (k : Accepts final) (n : Nat)
      (d : Pipeline (Tgt Unit n)) (msgMeta : MsgMetadata) (mailFrom : String) (rcpts : List String)
      (tx : Transaction (Tgt Unit n) (Dlv Unit (List String) n)),
      transaction (nested final n) d msgMeta mailFrom rcpts = some tx → tx.accepted.Nodup →
      ∀ (header : Header) (body : String) (a : Answers (List String)), a.Valid k →
      ∀ rcpt ∈ tx.accepted,
        statusCount (tx.dd.bodyNonAtomic (nested (answering final a) n) tx.msgMeta header
          body).statuses rcpt ≤ 1 := by
  intro h
  have htwice := h mailboxes mailboxesAccept 0 twoTargets { id := "m1" }
    "eve@example.org" ["ann@example.org"] _ rfl (by decide) [] "hello" _
    failing_valid "ann@example.org" (by decide)
  exact absurd htwice (by decide)

end Madmail.Proofs.StatusOnce
