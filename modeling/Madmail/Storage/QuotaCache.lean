import Mathlib.Logic.Function.Basic

namespace Madmail.Quota

structure Entry where
  usedBytes : Int := 0
  maxBytes : Int := 0
  isDefault : Bool := false
  deriving DecidableEq, Repr

structure Cache where
  entries : String → Option Entry
  defaultQuota : Int

def Cache.new : Cache := ⟨fun _ => none,0⟩

def loadEntry (used max : Option Int) (defaultQuota : Int) : Option Entry :=
  let seeded := used.map (fun used => ({ usedBytes := used } : Entry))
  let limited := match max with
    | none => seeded
    | some max =>
      let e := seeded.getD {}
      some (if max > 0 then { e with maxBytes := max, isDefault := false } else e)
  limited.map fun e =>
    if e.maxBytes = 0 then { e with maxBytes := defaultQuota, isDefault := true } else e

def Cache.load (usedMap quotaMap : String → Option Int) (defaultQuota : Int) : Cache :=
  ⟨fun username => loadEntry (usedMap username) (quotaMap username) defaultQuota,defaultQuota⟩

def Cache.get (c : Cache) (username : String) : Entry × Bool :=
  match c.entries username with
  | none => (⟨0,c.defaultQuota,true⟩,true)
  | some e => (e,false)

def Cache.set (c : Cache) (username : String) (e : Entry) : Cache :=
  { c with entries := Function.update c.entries username (some e) }

def Cache.setMax (c : Cache) (username : String) (maxBytes : Int) : Cache :=
  c.set username { (c.entries username).getD {} with maxBytes, isDefault := false }

def Cache.resetMax (c : Cache) (username : String) : Cache :=
  match c.entries username with
  | none => c
  | some e => c.set username { e with maxBytes := c.defaultQuota, isDefault := true }

def Cache.setDefaultQuota (c : Cache) (newDefault : Int) : Cache where
  defaultQuota := newDefault
  entries username := (c.entries username).map fun e =>
    if e.isDefault ∧ e.maxBytes = c.defaultQuota then { e with maxBytes := newDefault } else e

def Cache.entryOrDefault (c : Cache) (username : String) : Entry :=
  (c.entries username).getD ⟨0,c.defaultQuota,true⟩

def Cache.updateUsed (c : Cache) (username : String) (usedBytes : Int) : Cache :=
  c.set username { c.entryOrDefault username with usedBytes }

def Cache.addUsed (c : Cache) (username : String) (delta : Int) : Cache :=
  let used := (c.entryOrDefault username).usedBytes + delta
  c.set username { c.entryOrDefault username with usedBytes := if used < 0 then 0 else used }

def Cache.invalidate (c : Cache) (username : String) : Cache :=
  { c with entries := Function.update c.entries username none }

def Cache.invalidateAll (c : Cache) : Cache := { c with entries := fun _ => none }

inductive Call where
  | load (usedMap quotaMap : String → Option Int) (defaultQuota : Int)
  | setMax (username : String) (maxBytes : Int)
  | resetMax (username : String)
  | setDefaultQuota (newDefault : Int)
  | updateUsed (username : String) (usedBytes : Int)
  | addUsed (username : String) (delta : Int)
  | invalidate (username : String)
  | invalidateAll

def Cache.apply (c : Cache) : Call → Cache
  | .load usedMap quotaMap defaultQuota => .load usedMap quotaMap defaultQuota
  | .setMax username maxBytes => c.setMax username maxBytes
  | .resetMax username => c.resetMax username
  | .setDefaultQuota newDefault => c.setDefaultQuota newDefault
  | .updateUsed username usedBytes => c.updateUsed username usedBytes
  | .addUsed username delta => c.addUsed username delta
  | .invalidate username => c.invalidate username
  | .invalidateAll => c.invalidateAll

/-- Whether a call may be about the user: it names them, or it is about all of them. -/
def Call.Concerns (username : String) : Call → Prop
  | .load _ _ _ | .setDefaultQuota _ | .invalidateAll => True
  | .setMax name _ | .resetMax name | .updateUsed name _ | .addUsed name _ | .invalidate name =>
    name = username

end Madmail.Quota
