import Madmail.Proofs.QueueCrash

namespace Madmail.Proofs.QueueRefused
open Lib.FileProg Madmail.Module Queue Queue.Disk QueueCrash

def storeCalls (m : QueueMetadata) (header : Header) (body : String) : List (Op Part FileData) :=
  [.create .header .empty,.write .header (.header header),.other,.create .body .empty,
    .write .body (.body body),.create .metaNew .empty,.write .metaNew (.json (metaCopy m)),
    .sync .metaNew,.rename .metaNew .metadata,.sync .header,.sync .body]

/-- The first call that fails is followed by a clean-up of all that was stored
before it, and no call of that clean-up fails. -/
def CleanedUp (fails : Op Part FileData → Bool) : Op Part FileData → Prop
  | .create .header _ => True
  | .write .header _ | .other => fails (.remove .header) = false
  | .create .body _ | .sync .header | .sync .body => False
  | _ => fails (.remove .body) = false ∧ fails (.remove .header) = false

/-- The message has no file that a start of the queue would look at. -/
def Absent (d : Dir Part FileData) : Prop := ∀ part, part ≠ Part.metaNew → d part = none

theorem absent_iff : Absent d ↔ d .header = none ∧ d .body = none ∧ d .metadata = none := by
  constructor
  · intro h
    exact ⟨h .header (by decide),h .body (by decide),h .metadata (by decide)⟩
  · rintro ⟨hh,hb,hm⟩ part hp
    cases part with
    | header => exact hh
    | body => exact hb
    | metadata => exact hm
    | metaNew => exact absurd rfl hp

theorem call_bind : (call o onError next).bind k = call o (onError.bind k) (next.bind k) := by
  simp only [call,Prog.bind,Prog.op.injEq,true_and]
  funext ok
  cases ok <;> rfl

section Exec
variable {fails : Op Part FileData → Bool} {junk : Op Part FileData → FileData}
  {d : Dir Part FileData}

/-- If the script fails, it leaves nothing of the message behind. -/
def Undone (fails : Op Part FileData → Bool) (junk : Op Part FileData → FileData) (p : Script)
    (d : Dir Part FileData) : Prop :=
  (exec fails junk p d).1 = false → Absent (exec fails junk p d).2

theorem exec_bodyOrAbort :
    exec fails junk (bodyOrAbort m header body) d =
      exec fails junk (storeNewMessage m header body) d := by
  rw [bodyOrAbort,exec_bind]
  rcases exec fails junk (storeNewMessage m header body) d with ⟨ok,e⟩
  cases ok <;> rfl

/-- Either this call is the first to fail, or the rest of the script decides. -/
theorem undone_call (hen : enabled d o = true)
    (hfail : fails o = true → (Undone fails junk onError (fail d (junk o) o) ↔ CleanedUp fails o))
    (hnext : Undone fails junk next (succeed d o) ↔
      ∀ o', os.find? fails = some o' → CleanedUp fails o') :
    Undone fails junk (call o onError next) d ↔
      ∀ o', (o :: os).find? fails = some o' → CleanedUp fails o' := by
  unfold Undone at *
  rw [call,exec,ends,hen,Bool.and_true]
  cases hf : fails o with
  | true =>
    have hfind : (o :: os).find? fails = some o := by simp [hf]
    rw [hfind]
    exact (hfail hf).trans ⟨fun h o' ho => Option.some.inj ho ▸ h,fun h => h o rfl⟩
  | false =>
    have hfind : (o :: os).find? fails = os.find? fails := by simp [hf]
    rw [hfind]
    exact hnext

theorem undone_refuse : Undone fails junk refuse d ↔ Absent d := ⟨fun h => h rfl,fun h _ => h⟩

theorem undone_done : Undone fails junk (.done true) d := by
  nofun

theorem exec_remove :
    exec fails junk (tryRemoveDanglingFile part next) d =
      exec fails junk next
        (if ends fails d (.remove part) then Function.update d part none else d) := rfl

theorem undone_dropHeader (hh : (d .header).isSome = true) (hb : d .body = none)
    (hm : d .metadata = none) :
    Undone fails junk (tryRemoveDanglingFile .header refuse) d ↔
      fails (.remove .header) = false := by
  rw [Undone,exec_remove]
  cases hr : fails (.remove .header) with
  | true =>
    have hleft : d .header ≠ none := Option.isSome_iff_ne_none.mp hh
    simpa [ends,hr,refuse,exec,absent_iff] using fun h => absurd h hleft
  | false => simp [ends,enabled,hr,hh,hb,hm,refuse,exec,absent_iff]

theorem undone_dropBoth (hh : (d .header).isSome = true) (hb : (d .body).isSome = true)
    (hm : d .metadata = none) :
    Undone fails junk (tryRemoveDanglingFile .body (tryRemoveDanglingFile .header refuse)) d ↔
      fails (.remove .body) = false ∧ fails (.remove .header) = false := by
  rw [Undone,exec_remove,← Undone]
  cases hr : fails (.remove .body) with
  | true =>
    have hleft : d .body ≠ none := Option.isSome_iff_ne_none.mp hb
    have hbad : ¬ Undone fails junk (tryRemoveDanglingFile .header refuse) d := by
      intro h
      have hgone := (absent_iff.mp (h rfl)).2.1
      rw [exec_remove] at hgone
      revert hgone
      cases ends fails d (.remove .header) <;> simp [refuse,exec,hleft]
    simpa [ends,hr] using hbad
  | false =>
    have hen : ends fails d (.remove .body) = true := by simp [ends,enabled,hr,hb]
    rw [if_pos hen,undone_dropHeader (by simpa using hh) (by simp) (by simpa using hm)]
    simp

variable (junk) in
theorem undone_iff (hd : Absent d) :
    Undone fails junk (bodyOrAbort m header body) d ↔
      ∀ o, (storeCalls m header body).find? fails = some o → CleanedUp fails o := by
  obtain ⟨hh,hb,hm⟩ := absent_iff.mp hd
  rw [Undone,exec_bodyOrAbort,← Undone]
  simp only [storeNewMessage,updateMetadataOnDisk,call_bind]
  refine undone_call rfl ?_ <| undone_call rfl ?_ <| undone_call rfl ?_ <| undone_call rfl ?_ <|
    undone_call rfl ?_ <| undone_call rfl ?_ <| undone_call rfl ?_ <| undone_call rfl ?_ <|
    undone_call (by simp [enabled,succeed]) ?_ <| undone_call rfl ?_ <| undone_call rfl ?_ ?_
  all_goals try intro _
  case refine_1 => exact undone_refuse.trans (iff_of_true hd trivial)
  case refine_2 | refine_3 =>
    exact undone_dropHeader (by simp [succeed,fail]) (by simpa [succeed,fail])
      (by simpa [succeed,fail])
  case refine_4 | refine_10 | refine_11 =>
    refine undone_refuse.trans (iff_of_false ?_ id)
    intro h
    simpa [succeed,fail] using h .header (by decide)
  case refine_5 | refine_6 | refine_7 | refine_8 | refine_9 =>
    exact undone_dropBoth (by simp [succeed,fail]) (by simp [succeed,fail])
      (by simpa [succeed,fail])
  case refine_12 => exact iff_of_true undone_done (by simp)

end Exec

/-- The message is not in the queue directory and the next start does not
schedule it. -/
structure NotQueued (id : String) (d : QueueDir) : Prop where
  files : ∀ part, part ≠ Part.metaNew → d (fileName id part) = none
  unscheduled : ∀ q now f entries, Lists d entries →
    id ∉ (readDiskQueue q now f entries d).slots.map Prod.snd

theorem absent_unscheduled {id : String} (hd : d (fileName id .metadata) = none)
    (hl : Lists d entries) : id ∉ (readDiskQueue q now f entries d).slots.map Prod.snd := by
  intro h
  rw [readDiskQueue,scan_slots hl.nodup,List.nil_append] at h
  obtain ⟨⟨t,_⟩,hslot,rfl⟩ := List.mem_map.mp h
  obtain ⟨name,hname,hs⟩ := List.mem_filterMap.mp hslot
  obtain ⟨rfl, -⟩ := slotOf_eq_some.mp hs
  simpa [hd] using (hl.mem _).mp hname

theorem notQueued_iff {id : String} : NotQueued id d ↔ Absent (view d id) :=
  ⟨fun h => h.files,fun h =>
    ⟨h,fun _ _ _ _ hl => absent_unscheduled (h .metadata (by decide)) hl⟩⟩

/-- `Body` of a message, and `Abort` if it fails, in the directory of the queue.
`fails` tells which calls fail, and `junk` what a failed write leaves. -/
def refusedBody (fails : Op String FileData → Bool) (junk : Op String FileData → FileData)
    (m : QueueMetadata) (header : Header) (body : String) (d : QueueDir) : Bool × QueueDir :=
  exec fails junk ((bodyOrAbort m header body).map (fileName m.msgMeta.id)) d

/-- A refused message is not queued exactly when the first call that fails is one
after which `storeNewMessage` removes all it has stored, and the removals succeed. -/
theorem refused_not_queued_iff (fails : Op String FileData → Bool)
    (junk : Op String FileData → FileData) (m : QueueMetadata) (header : Header) (body : String)
    (d : QueueDir) (hd : Absent (view d m.msgMeta.id)) :
    ((refusedBody fails junk m header body d).1 = false →
        NotQueued m.msgMeta.id (refusedBody fails junk m header body d).2) ↔
      ∀ o, (storeCalls m header body).find? (fun o => fails (o.map (fileName m.msgMeta.id))) =
          some o →
        CleanedUp (fun o => fails (o.map (fileName m.msgMeta.id))) o := by
  rw [notQueued_iff,← undone_iff (fun o => junk (o.map (fileName m.msgMeta.id)))
    hd]
  have hlocal := exec_local (fileName_injective m.msgMeta.id) fails junk
    (bodyOrAbort m header body) d
  rw [Undone]
  unfold view
  rw [← hlocal]
  rfl

def diskFull : Op String FileData → Bool
  | .write _ (.body _) => true
  | _ => false

theorem disk_full_not_queued :
    (refusedBody diskFull (fun _ => .empty) (newDelivery { id := "m1" } "a@b.example" 0) [] "text"
      (fun _ => none)).1 = false ∧
    NotQueued "m1" (refusedBody diskFull (fun _ => .empty)
      (newDelivery { id := "m1" } "a@b.example" 0) [] "text" (fun _ => none)).2 := by
  have hrefused : (refusedBody diskFull (fun _ => .empty)
      (newDelivery { id := "m1" } "a@b.example" 0) [] "text" (fun _ => none)).1 = false := by decide
  refine ⟨hrefused,(refused_not_queued_iff diskFull (fun _ => .empty)
    (newDelivery { id := "m1" } "a@b.example" 0) [] "text" (fun _ => none) ?_).mpr ?_ hrefused⟩
  · intro _ _
    rfl
  · intro o ho
    cases ho
    exact ⟨rfl,rfl⟩

def syncError : Op String FileData → Bool
  | .sync name => name == "m1.body"
  | _ => false

/-- `Body` reports the error, but the meta-data is already in place: all three
files stay and the next start schedules the refused message. -/
theorem refused_message_scheduled :
    let r := refusedBody syncError (fun _ => .empty) (newDelivery { id := "m1" } "a@b.example" 0) []
      "text" (fun _ => none)
    r.1 = false ∧
      (readDiskQueue ⟨900,10,fun _ => 1⟩ 0 .none ["m1.body","m1.header","m1.meta"] r.2).slots.map
        Prod.snd = ["m1"] ∧
      ¬ NotQueued "m1" r.2 := by
  refine ⟨by decide,by decide,?_⟩
  intro h
  have hfile : ((refusedBody syncError (fun _ => .empty)
      (newDelivery { id := "m1" } "a@b.example" 0) [] "text" (fun _ => none)).2
        (fileName "m1" .metadata)).isSome = true := by decide
  rw [h.files .metadata (by decide)] at hfile
  cases hfile

end Madmail.Proofs.QueueRefused
