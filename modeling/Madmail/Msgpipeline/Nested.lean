import Madmail.Msgpipeline.Pipeline

namespace Madmail.Msgpipeline
open Exterrors Madmail.Module Delivery

/-- A pipeline as a target: by a `reroute` directive, or as a `msgpipeline`
module, whose type is another one. -/
structure Reroute (τ : Type) where
  pipeline : Pipeline τ
  isModule : Bool

def Targets.pipelines (ops : Targets τ δ) : Targets (Reroute τ) (Delivery τ δ) :=
  { isPipeline := fun tgt => !tgt.isModule
    start := fun tgt msgMeta mailFrom =>
      match Delivery.start tgt.pipeline msgMeta mailFrom with
      | (_,some e) => (msgMeta,.error e)
      | (dd,none) => (msgMeta,.ok dd)
    addRcpt := fun dd => dd.addRcpt ops
    body := fun dd msgMeta header body =>
      let (dd,msgMeta,err) := dd.body ops msgMeta header body
      (dd,msgMeta.quarantine,err)
    isPartialDelivery := fun _ => true
    bodyNonAtomic := fun dd msgMeta header body =>
      let r := dd.bodyNonAtomic ops msgMeta header body
      (r.dd,r.statuses)
    commit := fun dd => dd.commit ops
    abort := fun dd => dd.abort ops }

def Targets.sum (a : Targets τ δ) (b : Targets τ' δ') : Targets (τ ⊕ τ') (δ ⊕ δ') :=
  { isPipeline := Sum.elim a.isPipeline b.isPipeline
    start := fun tgt msgMeta mailFrom =>
      match tgt with
      | .inl t => ((a.start t msgMeta mailFrom).1,(a.start t msgMeta mailFrom).2.map .inl)
      | .inr t => ((b.start t msgMeta mailFrom).1,(b.start t msgMeta mailFrom).2.map .inr)
    addRcpt := fun obj msgMeta rcptTo =>
      match obj with
      | .inl o => Prod.map .inl (fun r => r) (a.addRcpt o msgMeta rcptTo)
      | .inr o => Prod.map .inr (fun r => r) (b.addRcpt o msgMeta rcptTo)
    body := fun obj msgMeta header body =>
      match obj with
      | .inl o => Prod.map .inl (fun r => r) (a.body o msgMeta header body)
      | .inr o => Prod.map .inr (fun r => r) (b.body o msgMeta header body)
    isPartialDelivery := Sum.elim a.isPartialDelivery b.isPartialDelivery
    bodyNonAtomic := fun obj msgMeta header body =>
      match obj with
      | .inl o => Prod.map .inl (fun r => r) (a.bodyNonAtomic o msgMeta header body)
      | .inr o => Prod.map .inr (fun r => r) (b.bodyNonAtomic o msgMeta header body)
    commit := fun obj =>
      match obj with
      | .inl o => Prod.map .inl (fun r => r) (a.commit o)
      | .inr o => Prod.map .inr (fun r => r) (b.commit o)
    abort := fun obj =>
      match obj with
      | .inl o => Prod.map .inl (fun r => r) (a.abort o)
      | .inr o => Prod.map .inr (fun r => r) (b.abort o) }

def Tgt (τ : Type) : Nat → Type
  | 0 => τ
  | n + 1 => τ ⊕ Reroute (Tgt τ n)

def Dlv (τ δ : Type) : Nat → Type
  | 0 => δ
  | n + 1 => δ ⊕ Delivery (Tgt τ n) (Dlv τ δ n)

def nested (final : Targets τ δ) : (n : Nat) → Targets (Tgt τ n) (Dlv τ δ n)
  | 0 => final
  | n + 1 => final.sum (nested final n).pipelines

/-- The addresses that the modifiers make of a recipient for one target. -/
def Delivery.expansion (dd : Delivery τ δ) (tgt : Nat) (rcptTo : String) : List String :=
  match dd.d.globalModifiers.rewriteRcpt rcptTo with
  | .error _ => []
  | .ok resultTo =>
    match (dd.rewriteSource resultTo).2 with
    | .error _ => []
    | .ok resultTo => resultTo.flatMap (fun rcptTo =>
        match dd.rcptBlockForAddr rcptTo with
        | .error _ => []
        | .ok block =>
          if tgt ∈ (dd.d.blocks block).targets then
            match (dd.d.blocks block).modifiers.rewriteRcpt rcptTo with
            | .error _ => []
            | .ok newTo => newTo
          else [])

/-- The recipient is expanded to the address `e` at the target that is reached
by way of the given ones, the last of them included. -/
def Expands : (n : Nat) → Delivery (Tgt τ n) (Dlv τ δ n) → List Nat → String → String → Prop
  | _, _, [], rcptTo, e => rcptTo = e
  | 0, dd, tgt :: via, rcptTo, e => via = [] ∧ e ∈ dd.expansion tgt rcptTo
  | n + 1, dd, tgt :: via, rcptTo, e =>
    match dd.handle tgt with
    | none => False
    | some ⟨.inl _,_⟩ => via = [] ∧ e ∈ dd.expansion tgt rcptTo
    | some ⟨.inr inner,_⟩ => ∃ x ∈ dd.expansion tgt rcptTo, Expands n inner via x e

end Madmail.Msgpipeline
