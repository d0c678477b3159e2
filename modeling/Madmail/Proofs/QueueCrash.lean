import Madmail.Queue.Disk

namespace Madmail.Proofs.QueueCrash
open Lib Lib.FileProg Madmail.Module Queue Queue.Disk Function

variable {id id' : String}

def view (d : QueueDir) (id : String) : Dir Part FileData := fun part => d (fileName id part)

theorem fileName_inj (h : fileName id p = fileName id' p') : id = id' ∧ p = p' := by
  have hl : id.toList ++ p.suffix.toList = id'.toList ++ p'.suffix.toList := by
    simpa [fileName] using congrArg String.toList h
  have hne (q : Part) : q.suffix.toList ≠ [] := by cases q <;> decide
  -- The suffixes end in different letters.
  have hlast : p.suffix.toList.getLast? = p'.suffix.toList.getLast? := by
    have := congrArg List.getLast? hl
    rwa [List.getLast?_append_of_ne_nil _ (hne p),List.getLast?_append_of_ne_nil _ (hne p')] at this
  have hp : p = p' := by
    cases p <;> cases p' <;> first | rfl | exact absurd hlast (by decide)
  subst hp
  exact ⟨String.ext (List.append_cancel_right hl),rfl⟩

theorem fileName_injective (id : String) : Injective (fileName id) :=
  fun _ _ h => (fileName_inj h).2

theorem metaID_eq_some : metaID name = some id ↔ name = fileName id .metadata := by
  unfold metaID
  constructor
  · intro h
    split at h
    · rename_i hs
      obtain ⟨t,ht⟩ := List.isSuffixOf_iff_suffix.mp hs
      cases h
      apply String.ext
      have hlen : name.toList.length - 5 = t.length := by
        rw [← ht]; simp
      rw [hlen,← ht]
      simp [fileName,Part.suffix]
    · cases h
  · intro h
    subst h
    simp [fileName,Part.suffix]

theorem view_update_other (h : id' ≠ id) :
    view (update d (fileName id part) v) id' = view d id' := by
  funext p
  exact update_of_ne (fun he => h (fileName_inj he).1) v d

/-- Whatever the cut, a meta-data file decodes, and it is only there together
with a header that was written out. -/
structure Sound (d : Dir Part FileData) : Prop where
  decodes : ∀ x, d .metadata = some x → ∃ m, x = .json (metaCopy m)
  header : ∀ x, d .metadata ≠ none → d .header = some x → ∃ h, x = .header h

structure Holds (msg : Message) (d : Dir Part FileData) : Prop where
  metadata : d .metadata = some (.json (metaCopy msg.last))
  header : d .header = some (.header msg.header)
  body : d .body = some msg.body

theorem Sound.of_absent (h : d .metadata = none) : Sound d :=
  ⟨fun x hx => by simp [h] at hx,fun x hx => absurd h hx⟩

theorem Sound.of_removed (hd : Sound d) (h : ∀ p, e p = d p ∨ e p = none) : Sound e := by
  refine ⟨?_,?_⟩
  · intro x hx
    rcases h .metadata with hm | hm
    · exact hd.decodes x (hm ▸ hx)
    · simp [hm] at hx
  · intro x hmeta hx
    rcases h .metadata with hm | hm
    · rcases h .header with hh | hh
      · exact hd.header x (hm ▸ hmeta) (hh ▸ hx)
      · simp [hh] at hx
    · exact absurd hm hmeta

theorem Holds.sound (h : Holds msg d) : Sound d := by
  refine ⟨?_,?_⟩
  · intro x hx
    rw [h.metadata] at hx
    exact ⟨msg.last,by simpa using hx.symm⟩
  · intro x _ hx
    rw [h.header] at hx
    exact ⟨msg.header,by simpa using hx.symm⟩

section Scripts

theorem valid_call {I : Dir Part FileData → Prop} {Q : Bool → Dir Part FileData → Prop}
    (hi : I d) (hok : enabled d o = true → Valid I Q next (succeed d o))
    (hfail : ∀ junk, Valid I Q onError (fail d junk o)) :
    Valid I Q (call o onError next) d :=
  Valid.op hi hok hfail

def SameMessage (d e : Dir Part FileData) : Prop := ∀ p, p ≠ Part.metaNew → e p = d p

theorem SameMessage.update_new (h : SameMessage d e) (v : Option FileData) :
    SameMessage d (update e .metaNew v) := by
  intro p hp
  rw [update_of_ne hp]
  exact h p hp

theorem update_spec {m : QueueMetadata} {d : Dir Part FileData} :
    Valid (SameMessage d)
      (fun ok e => SameMessage
        (if ok then update d .metadata (some (.json (metaCopy m))) else d) e)
      (updateMetadataOnDisk m) d := by
  have h0 : SameMessage d d := fun _ _ => rfl
  have h1 := h0.update_new (some .empty)
  have h2 := h1.update_new (some (.json (metaCopy m)))
  apply valid_call h0
  · intro _
    apply valid_call h1
    · intro _
      apply valid_call h2
      · intro _
        apply valid_call h2
        · intro _ p hp
          cases p <;> simp_all [succeed]
        · exact fun _ => h2
      · exact fun _ => h2
    · exact fun junk => h1.update_new (some junk)
  · exact fun _ => h0

theorem holds_same (h : Holds msg d) (hs : SameMessage d e) : Holds msg e :=
  ⟨(hs _ (by decide)).trans h.metadata,(hs _ (by decide)).trans h.header,
    (hs _ (by decide)).trans h.body⟩

theorem update_valid (h : Holds msg d) :
    Valid (Holds msg) (fun ok e => Holds (if ok then { msg with last := m } else msg) e)
      (updateMetadataOnDisk m) d := by
  refine Valid.mono (fun e he => holds_same h he) ?_ update_spec
  intro ok e he
  cases ok with
  | false => exact holds_same h he
  | true =>
    refine holds_same ⟨?_,?_,?_⟩ he
    · simp
    · simpa using h.header
    · simpa using h.body

theorem dropHeader_valid (h : d .metadata = none)
    (hq : ∀ e : Dir Part FileData, e .metadata = none → Q false e) :
    Valid Sound Q (tryRemoveDanglingFile .header refuse) d := by
  apply Valid.op (Sound.of_absent h)
  · intro _
    exact hq _ (by simpa [succeed] using h)
  · intro _
    exact hq _ h

theorem dropBoth_valid (h : d .metadata = none)
    (hq : ∀ e : Dir Part FileData, e .metadata = none → Q false e) :
    Valid Sound Q (tryRemoveDanglingFile .body (tryRemoveDanglingFile .header refuse)) d := by
  apply Valid.op (Sound.of_absent h)
  · intro _
    exact dropHeader_valid (by simpa [succeed] using h) hq
  · intro _
    exact dropHeader_valid h hq

/-- The meta-data comes last: until it is renamed into place there is none, and
from then on the message is complete. -/
theorem store_valid (h : d .metadata = none) :
    Valid Sound (fun ok e => if ok then Holds ⟨m,header,.body body⟩ e else Sound e)
      (storeNewMessage m header body) d := by
  have hq (e : Dir Part FileData) (he : e .metadata = none) :
      (if false = true then Holds ⟨m,header,.body body⟩ e else Sound e) := by
    simpa using Sound.of_absent he
  have h1 : update d .header (some FileData.empty) .metadata = none := by simpa using h
  have h2 : update (update d .header (some FileData.empty)) .header
      (some (.header header)) .metadata = none := by simpa using h
  apply valid_call (Sound.of_absent h)
  · intro _
    apply valid_call (Sound.of_absent h1)
    · intro _
      apply valid_call (Sound.of_absent h2)
      · intro _
        apply valid_call (Sound.of_absent h2)
        · intro _
          apply valid_call (Sound.of_absent (by simpa [succeed] using h))
          · intro _
            apply Valid.bind (Valid.mono ?_ (fun _ _ hr => hr) update_spec)
            · intro ok e he
              cases ok with
              | false =>
                refine dropBoth_valid ?_ hq
                exact (he .metadata (by decide)).trans (by simpa [succeed] using h)
              | true =>
                have hh : Holds ⟨m,header,.body body⟩ e :=
                  holds_same ⟨by simp,by simp [succeed],by simp [succeed]⟩ he
                apply valid_call hh.sound
                · intro _
                  apply valid_call hh.sound
                  · exact fun _ => hh
                  · exact fun _ => hh.sound
                · exact fun _ => hh.sound
            · intro e he
              exact Sound.of_absent ((he .metadata (by decide)).trans (by simpa [succeed] using h))
          · exact fun _ => dropBoth_valid (by simpa [fail,succeed] using h) hq
        · exact fun _ => hq _ h2
      · exact fun _ => dropHeader_valid h2 hq
    · exact fun _ => dropHeader_valid (by simpa [fail,succeed] using h) hq
  · exact fun _ => hq _ h

theorem sound_remove (h : Sound d) : Sound (succeed d (.remove part)) := by
  apply h.of_removed
  intro p
  by_cases hp : p = part
  · subst p; simp [succeed]
  · simp [succeed,hp]

theorem remove_valid (h : Sound d) : Valid Sound (fun _ e => Sound e) removeFromDisk d := by
  have hop {k : Bool → Script} {part : Part} {e : Dir Part FileData} (he : Sound e)
      (hk : ∀ ok e', Sound e' → Valid Sound (fun _ e => Sound e) (k ok) e') :
      Valid Sound (fun _ e => Sound e) (.op (.remove part) k) e :=
    Valid.op he (fun _ => hk true _ (sound_remove he)) (fun _ => hk false _ he)
  apply hop h
  intro _ _ h1
  apply hop h1
  intro _ _ h2
  apply hop h2
  intro _ _ h3
  exact h3

end Scripts

/-- What the disk holds of a message in each phase, and for an operation under
way what the rest of it will keep true. -/
def PhaseOK : Phase → Dir Part FileData → Prop
  | .fresh, d => d .metadata = none
  | .storing msg rest, d =>
    Sound d ∧ Valid Sound (fun ok e => if ok then Holds msg e else Sound e) rest d
  | .stored msg, d => Holds msg d
  | .updating msg next rest, d =>
    Holds msg d ∧
      Valid (Holds msg) (fun ok e => Holds (if ok then { msg with last := next } else msg) e) rest d
  | .removing rest, d => Sound d ∧ Valid Sound (fun _ e => Sound e) rest d
  | .gone, d => Sound d

theorem PhaseOK.sound {d : Dir Part FileData} (h : PhaseOK phase d) : Sound d := by
  cases phase with
  | fresh => exact Sound.of_absent h
  | storing msg rest => exact h.1
  | stored msg => exact Holds.sound h
  | updating msg next rest => exact h.1.sound
  | removing rest => exact h.1
  | gone => exact h

theorem resume_ok (h : PhaseOK phase d) (hs : phase.script = some (.op o next))
    (ho : outcome d o ok junk = some d') : PhaseOK (phase.resume (next ok)) d' := by
  cases phase with
  | fresh | stored _ | gone => simp [Phase.script] at hs
  | storing msg rest | updating msg m rest | removing rest =>
    simp only [Phase.script,Option.some.injEq] at hs
    subst rest
    have hv := h.2.2 ok junk d' ho
    cases hn : next ok with
    | op o' next' => rw [hn] at hv; exact ⟨hv.1,hv⟩
    | done r => rw [hn] at hv; cases r <;> exact hv

section Scan
variable {q : RetryConfig} {now : Int} {f : Faults}

def Complete (d : QueueDir) (id : String) : Prop :=
  ∀ part ∈ [Part.metadata,.header,.body], (d (fileName id part)).isSome = true

def cleaned (f : Faults) (id : String) (d : QueueDir) : Found → QueueDir
  | .dangling parts => parts.foldl (removeDangling f id) d
  | .skipped | .complete _ => d

theorem scanEntry_dir (h : metaID name = some id) :
    (scanEntry q now f s name).dir = cleaned f id s.dir (inspect f s.dir id) := by
  unfold scanEntry
  rw [h]
  simp only
  cases inspect f s.dir id <;> rfl

theorem removeDangling_cases (f : Faults) (id : String) (d : QueueDir) (part : Part) (n : String) :
    removeDangling f id d part n = d n ∨ removeDangling f id d part n = none := by
  unfold removeDangling
  split
  · exact Or.inl rfl
  · by_cases hn : n = fileName id part
    · subst n; simp
    · simp [hn]

theorem removeDangling_other (h : id' ≠ id) :
    view (removeDangling f id d part) id' = view d id' := by
  unfold removeDangling
  split
  · rfl
  · exact view_update_other h

theorem cleaned_cases (f : Faults) (id : String) (d : QueueDir) (r : Found) (n : String) :
    cleaned f id d r n = d n ∨ cleaned f id d r n = none := by
  cases r with
  | skipped | complete _ => exact Or.inl rfl
  | dangling parts =>
    simp only [cleaned]
    induction parts generalizing d with
    | nil => exact Or.inl rfl
    | cons part parts ih =>
      rcases ih (removeDangling f id d part) with h | h
      · rw [List.foldl_cons,h]
        exact removeDangling_cases f id d part n
      · exact Or.inr h

theorem cleaned_other (h : id' ≠ id) (r : Found) : view (cleaned f id d r) id' = view d id' := by
  cases r with
  | skipped | complete _ => rfl
  | dangling parts =>
    simp only [cleaned]
    induction parts generalizing d with
    | nil => rfl
    | cons part parts ih => rw [List.foldl_cons,ih,removeDangling_other h]

theorem inspect_congr (h : view d id = view e id) : inspect f d id = inspect f e id := by
  have hp (part : Part) : d (fileName id part) = e (fileName id part) := congrFun h part
  simp only [inspect,readMessageMeta,hp]

theorem inspect_complete (h : Complete d id) : cleaned f id d (inspect f d id) = d := by
  have hh : (d (fileName id .header)).isNone = false := by
    simpa using h .header (by simp)
  have hb : (d (fileName id .body)).isNone = false := by
    simpa using h .body (by simp)
  unfold inspect
  split
  · rfl
  · cases readMessageMeta d id with
    | none => rfl
    | some m => cases f.stat (fileName id .header) <;> cases f.stat (fileName id .body) <;>
        simp [hh,hb,cleaned]

theorem Complete.congr (h : view e id = view d id) (hc : Complete d id) : Complete e id := by
  intro part hp
  have he : e (fileName id part) = d (fileName id part) := congrFun h part
  rw [he]
  exact hc part hp

theorem scanEntry_kept (hc : name = fileName id .metadata → Complete s.dir id) :
    view (scanEntry q now f s name).dir id = view s.dir id := by
  cases hm : metaID name with
  | none => simp only [scanEntry,hm]
  | some id' =>
    rw [scanEntry_dir hm]
    by_cases h : id = id'
    · subst id'
      rw [inspect_complete (hc (metaID_eq_some.mp hm))]
    · exact cleaned_other h _

/-- A scan, complete or not, does not touch complete messages, nor those it does not meet. -/
theorem scan_kept (entries : List String)
    (hc : fileName id .metadata ∈ entries → Complete s.dir id) :
    view (entries.foldl (scanEntry q now f) s).dir id = view s.dir id := by
  induction entries generalizing s with
  | nil => rfl
  | cons name entries ih =>
    have hk : view (scanEntry q now f s name).dir id = view s.dir id :=
      scanEntry_kept fun h => hc (h ▸ List.mem_cons_self)
    exact (ih fun h => (hc (List.mem_cons_of_mem _ h)).congr hk).trans hk

theorem scan_cases (entries : List String) (s : Scan) (n : String) :
    (entries.foldl (scanEntry q now f) s).dir n = s.dir n ∨
      (entries.foldl (scanEntry q now f) s).dir n = none := by
  induction entries generalizing s with
  | nil => exact Or.inl rfl
  | cons name entries ih =>
    rcases ih (scanEntry q now f s name) with h | h
    · rw [List.foldl_cons,h]
      cases hm : metaID name with
      | none => simp [scanEntry,hm]
      | some id => rw [scanEntry_dir hm]; exact cleaned_cases f id s.dir _ n
    · exact Or.inr h

end Scan

theorem Holds.complete (h : Holds msg (view d id)) : Complete d id := by
  intro part hp
  simp only [List.mem_cons,List.not_mem_nil,or_false] at hp
  rcases hp with rfl | rfl | rfl
  · exact Option.isSome_iff_exists.mpr ⟨_,h.metadata⟩
  · exact Option.isSome_iff_exists.mpr ⟨_,h.header⟩
  · exact Option.isSome_iff_exists.mpr ⟨_,h.body⟩

/-- What the phase of a message says is still true after a restart. -/
theorem restarted_ok (hp : PhaseOK phase (view d id))
    (hkept : Complete d id → view e id = view d id) (hcases : ∀ n, e n = d n ∨ e n = none) :
    PhaseOK (restarted d id phase) (view e id) := by
  have hsound := hp.sound
  have hgone : Sound (view e id) := hsound.of_removed (fun p => hcases (fileName id p))
  -- An ID whose phase does not say whether the message is there.
  have hload : PhaseOK (restarted d id .gone) (view e id) := by
    simp only [restarted]
    split
    · rename_i m header body hm hh hb
      have hc : Complete d id := by simp [Complete,hm,hh,hb]
      obtain ⟨m',hm'⟩ := hsound.decodes _ hm
      cases hm'
      rw [hkept hc]
      exact ⟨hm,hh,hb⟩
    · exact hgone
  cases phase with
  | fresh =>
    have h : view d id .metadata = none := hp
    rcases hcases (fileName id .metadata) with he | he
    · exact he.trans h
    · exact he
  | stored msg => exact (hkept hp.complete).symm ▸ hp
  | updating msg next rest => exact (hkept hp.1.complete).symm ▸ hp.1
  | storing msg rest => exact hload
  | removing rest => exact hload
  | gone => exact hload

def Invariant (w : World) : Prop := ∀ id, PhaseOK (w.phase id) (view w.dir id)

theorem enter_invariant (hw : Invariant w)
    (hother : ∀ id', id' ≠ id → view d id' = view w.dir id') (h : PhaseOK phase (view d id)) :
    Invariant (({ w with dir := d } : World).enter id phase) := by
  intro id'
  by_cases he : id' = id
  · subst id'
    simpa [World.enter] using h
  · simp only [World.enter,update_of_ne he,hother id' he]
    exact hw id'

theorem step_invariant {w w' : World} {a : Action} (hw : Invariant w) (h : w.step a = some w') :
    Invariant w' := by
  cases a with
  | store m header body =>
    simp only [World.step] at h
    split at h
    · rename_i hf
      have hp := hw m.msgMeta.id
      rw [hf] at hp
      cases h
      exact enter_invariant hw (fun _ _ => rfl) ⟨hp.sound,store_valid hp⟩
    · cases h
  | update m =>
    simp only [World.step] at h
    split at h
    · rename_i msg hf
      have hp := hw m.msgMeta.id
      rw [hf] at hp
      cases h
      exact enter_invariant hw (fun _ _ => rfl) ⟨hp,update_valid hp⟩
    · cases h
  | remove id =>
    simp only [World.step] at h
    split at h
    · rename_i msg hf
      have hp := hw id
      rw [hf] at hp
      cases h
      exact enter_invariant hw (fun _ _ => rfl) ⟨hp.sound,remove_valid hp.sound⟩
    · cases h
  | call id ok junk =>
    simp only [World.step] at h
    split at h
    · rename_i o next hs
      obtain ⟨d,ho,hw'⟩ := Option.map_eq_some_iff.mp h
      subst w'
      apply enter_invariant hw
      · intro id' hne
        funext p
        have hn : ∀ n, fileName id' p ≠ fileName id n := fun n hn => hne (fileName_inj hn).1
        change d (fileName id' p) = w.dir (fileName id' p)
        exact outcome_frame ho hn
      · exact resume_ok (hw id) hs (outcome_local (fileName_injective id) ho)
    · cases h
  | restart q now f entries =>
    cases h
    intro id
    have hkept : Complete w.dir id →
        view (readDiskQueue q now f entries w.dir).dir id = view w.dir id :=
      fun hc => scan_kept entries fun _ => hc
    exact restarted_ok (hw id) hkept (scan_cases entries ⟨w.dir,[]⟩)

theorem start_invariant : Invariant World.start := fun _ => rfl

theorem run_world_invariant (h : run World.step World.start acts = some w) : Invariant w :=
  run_invariant (fun _ _ _ hs (_ : True) ht => step_invariant hs ht) start_invariant
    (fun _ _ => trivial) h

section Listing
variable {q : RetryConfig} {now : Int} {f : Faults} {entries : List String}

def slotOf (q : RetryConfig) (now : Int) (f : Faults) (d : QueueDir) (name : String) :
    Option (Int × String) :=
  (metaID name).bind fun id =>
    match inspect f d id with
    | .complete m => some (nextTryTime q now m,id)
    | .skipped | .dangling _ => none

theorem scanEntry_slots :
    (scanEntry q now f s name).slots = s.slots ++ (slotOf q now f s.dir name).toList := by
  unfold scanEntry slotOf
  cases metaID name with
  | none => simp
  | some id =>
    simp only [Option.bind_some]
    cases inspect f s.dir id <;> simp

theorem slotOf_congr (h : ∀ id, metaID name = some id → view d id = view e id) :
    slotOf q now f d name = slotOf q now f e name := by
  unfold slotOf
  cases hm : metaID name with
  | none => rfl
  | some id => simp [inspect_congr (h id hm)]

/-- Each entry is judged as the directory was before the scan: what the scan
removes belongs to entries it has already passed. -/
theorem scan_slots (hn : entries.Nodup) :
    (entries.foldl (scanEntry q now f) s).slots =
      s.slots ++ entries.filterMap (slotOf q now f s.dir) := by
  induction entries generalizing s with
  | nil => simp
  | cons name entries ih =>
    obtain ⟨hfirst,hrest⟩ := List.nodup_cons.mp hn
    have hsame : entries.filterMap (slotOf q now f (scanEntry q now f s name).dir) =
        entries.filterMap (slotOf q now f s.dir) := by
      apply List.filterMap_congr
      intro other hother
      apply slotOf_congr
      intro id hid
      apply scanEntry_kept
      rw [← metaID_eq_some.mp hid]
      exact fun he => absurd (he ▸ hother) hfirst
    rw [List.foldl_cons,ih hrest,scanEntry_slots,hsame,List.append_assoc]
    cases hs : slotOf q now f s.dir name <;> simp [hs]

end Listing

section Recovery
variable {q : RetryConfig} {now : Int} {entries : List String}

theorem inspect_found (hs : Sound (view d id)) :
    (d (fileName id .metadata) = none ∧ inspect .none d id = .skipped) ∨
    (¬ Complete d id ∧ ∃ p, inspect .none d id = .dangling [.metadata,p]) ∨
    (Complete d id ∧ ∃ m, inspect .none d id = .complete m) := by
  cases hm : d (fileName id .metadata) with
  | none => exact Or.inl ⟨rfl,by simp [inspect,readMessageMeta,hm,Faults.none]⟩
  | some x =>
    right
    obtain ⟨m,rfl⟩ := hs.decodes x hm
    cases hh : d (fileName id .header) with
    | none =>
      exact Or.inl ⟨by simp [Complete,hh],.body,
        by simp [inspect,readMessageMeta,hm,hh,Faults.none]⟩
    | some y =>
      cases hb : d (fileName id .body) with
      | none =>
        exact Or.inl ⟨by simp [Complete,hb],.header,
          by simp [inspect,readMessageMeta,hm,hh,hb,Faults.none]⟩
      | some z =>
        exact Or.inr ⟨by simp [Complete,hm,hh,hb],metaCopy m,
          by simp [inspect,readMessageMeta,hm,hh,hb,Faults.none]⟩

theorem slotOf_eq_some :
    slotOf q now f d name = some (t,id) ↔
      name = fileName id .metadata ∧ ∃ m, inspect f d id = .complete m ∧ t = nextTryTime q now m := by
  unfold slotOf
  rw [Option.bind_eq_some_iff]
  constructor
  · rintro ⟨id',hid,h⟩
    split at h
    · rename_i m hm
      cases h
      exact ⟨metaID_eq_some.mp hid,m,hm,rfl⟩
    all_goals cases h
  · rintro ⟨hname,m,hm,ht⟩
    refine ⟨id,metaID_eq_some.mpr hname,?_⟩
    simp only [hm,ht]

theorem scheduled_iff (hs : Sound (view d id)) (hl : Lists d entries) :
    id ∈ (readDiskQueue q now .none entries d).slots.map Prod.snd ↔ Complete d id := by
  unfold readDiskQueue
  rw [scan_slots hl.nodup,List.nil_append]
  constructor
  · intro h
    obtain ⟨⟨t,_⟩,hslot,rfl⟩ := List.mem_map.mp h
    obtain ⟨name,_,hname⟩ := List.mem_filterMap.mp hslot
    obtain ⟨_,m,hm,_⟩ := slotOf_eq_some.mp hname
    rcases inspect_found hs with ⟨_,hi⟩ | ⟨_,p,hi⟩ | ⟨hc,_⟩
    · cases hm.symm.trans hi
    · cases hm.symm.trans hi
    · exact hc
  · intro hc
    rcases inspect_found hs with ⟨hm,_⟩ | ⟨hnc,_⟩ | ⟨_,m,hi⟩
    · have := hc .metadata (by simp)
      simp [hm] at this
    · exact absurd hc hnc
    · apply List.mem_map.mpr
      refine ⟨(nextTryTime q now m,id),?_,rfl⟩
      apply List.mem_filterMap.mpr
      exact ⟨fileName id .metadata,(hl.mem _).mpr (hc .metadata (by simp)),
        slotOf_eq_some.mpr ⟨rfl,m,hi,rfl⟩⟩

theorem scheduled_once (hl : Lists d entries) :
    ((readDiskQueue q now f entries d).slots.map Prod.snd).Nodup := by
  unfold readDiskQueue
  rw [scan_slots hl.nodup,List.nil_append,List.map_filterMap]
  apply hl.nodup.filterMap
  intro name name' id h h'
  obtain ⟨⟨_,_⟩,hn,rfl⟩ := Option.map_eq_some_iff.mp h
  obtain ⟨⟨_,_⟩,hn',he⟩ := Option.map_eq_some_iff.mp h'
  cases he
  exact (slotOf_eq_some.mp hn).1.trans (slotOf_eq_some.mp hn').1.symm

theorem cleaned_metadata :
    cleaned .none id d (.dangling [.metadata,p]) (fileName id .metadata) = none := by
  simp only [cleaned,List.foldl_cons,List.foldl_nil]
  rcases removeDangling_cases .none id (removeDangling .none id d .metadata) p
    (fileName id .metadata) with h | h
  · rw [h]; simp [removeDangling,Faults.none]
  · exact h

theorem incomplete_swept (hs : Sound (view d id)) (hl : Lists d entries) (hc : ¬ Complete d id) :
    (readDiskQueue q now .none entries d).dir (fileName id .metadata) = none := by
  unfold readDiskQueue
  rcases inspect_found hs with ⟨hm,_⟩ | ⟨_,p,hi⟩ | ⟨hc',_⟩
  · rcases @scan_cases q now .none entries ⟨d,[]⟩ (fileName id .metadata) with h | h
    · exact h.trans hm
    · exact h
  · by_cases hmem : fileName id .metadata ∈ entries
    · -- The entry of the ID is judged by files that no entry before it has touched.
      obtain ⟨before,after,he⟩ := List.append_of_mem hmem
      have hn := hl.nodup
      rw [he] at hn
      have hnot : fileName id .metadata ∉ before := by
        intro hb
        exact (List.nodup_append.mp hn).2.2 _ hb _ (by simp) rfl
      have hview := @scan_kept id q now .none ⟨d,[]⟩ before (absurd · hnot)
      rw [he,List.foldl_append,List.foldl_cons]
      rcases @scan_cases q now .none after (scanEntry q now .none
        (before.foldl (scanEntry q now .none) ⟨d,[]⟩) (fileName id .metadata))
        (fileName id .metadata) with h | h
      · rw [h,scanEntry_dir (metaID_eq_some.mpr rfl),inspect_congr hview,hi]
        exact cleaned_metadata
      · exact h
    · have hnone : d (fileName id .metadata) = none := by
        simpa using fun h => hmem ((hl.mem _).mpr h)
      rcases @scan_cases q now .none entries ⟨d,[]⟩ (fileName id .metadata) with h | h
      · exact h.trans hnone
      · exact h
  · exact absurd hc' hc

theorem openMessage_holds (h : Holds msg (view d id)) :
    openMessage d id = (d,some { msg with last := metaCopy msg.last }) := by
  have hm : d (fileName id .metadata) = some (.json (metaCopy msg.last)) := h.metadata
  have hh : d (fileName id .header) = some (.header msg.header) := h.header
  have hb : d (fileName id .body) = some msg.body := h.body
  simp only [openMessage,readMessageMeta,hm,hh,hb]

end Recovery

/-- The message that the queue answers for: its `Body` has returned nil and its
removal has not begun. -/
def accepted : Phase → Option Message
  | .stored msg | .updating msg _ _ => some msg
  | .fresh | .storing _ _ | .removing _ | .gone => none

theorem accepted_holds (h : PhaseOK phase d) (ha : accepted phase = some msg) : Holds msg d := by
  cases phase with
  | fresh | storing _ _ | removing _ | gone => cases ha
  | stored _ => cases ha; exact h
  | updating _ _ _ => cases ha; exact h.1

structure Recovered (w : World) (s : Scan) : Prop where
  once : (s.slots.map Prod.snd).Nodup
  scheduled : ∀ id, id ∈ s.slots.map Prod.snd ↔ Complete w.dir id
  -- `metaCopy` only drops the connection.
  kept : ∀ id msg, accepted (w.phase id) = some msg → id ∈ s.slots.map Prod.snd ∧
    openMessage s.dir id = (s.dir,some { msg with last := metaCopy msg.last })
  swept : ∀ id, ¬ Complete w.dir id → s.dir (fileName id .metadata) = none

theorem lists_scanEntry (hl : ∃ entries, Lists s.dir entries) :
    ∃ entries, Lists (scanEntry q now f s name).dir entries := by
  cases hm : metaID name with
  | none => simpa [scanEntry,hm] using hl
  | some id =>
    rw [scanEntry_dir hm]
    cases inspect f s.dir id with
    | skipped | complete _ => exact hl
    | dangling parts =>
      simp only [cleaned]
      generalize s.dir = d at hl ⊢
      induction parts generalizing d with
      | nil => exact hl
      | cons part parts ih =>
        apply ih
        obtain ⟨entries,he⟩ := hl
        unfold removeDangling
        split
        · exact ⟨entries,he⟩
        · exact lists_update he

theorem lists_step {w w' : World} {a : Action} (hl : ∃ entries, Lists w.dir entries)
    (h : w.step a = some w') : ∃ entries, Lists w'.dir entries := by
  cases a with
  | store _ _ _ | update _ | remove _ =>
    simp only [World.step] at h
    split at h
    · cases h; exact hl
    · cases h
  | call id ok junk =>
    simp only [World.step] at h
    split at h
    · obtain ⟨d,ho,hw'⟩ := Option.map_eq_some_iff.mp h
      subst w'
      exact lists_outcome hl ho
    · cases h
  | restart q now f scanned =>
    cases h
    unfold readDiskQueue
    generalize hs : (⟨w.dir,[]⟩ : Scan) = s
    have hl : ∃ entries, Lists s.dir entries := by subst s; exact hl
    clear hs
    induction scanned generalizing s with
    | nil => exact hl
    | cons name scanned ih => exact ih _ (lists_scanEntry hl)

theorem run_lists (h : run World.step World.start acts = some w) :
    ∃ entries, Lists w.dir entries := by
  have hstart : ∃ entries, Lists World.start.dir entries :=
    ⟨[],List.nodup_nil,by simp [World.start]⟩
  exact run_keeps (P := fun w => ∃ entries, Lists w.dir entries)
    (fun _ _ _ _ _ ht hs => lists_step hs ht) hstart h

/-- Cut the operations of the queue off after any call, failed calls and earlier
restarts included: a following scan of the directory schedules exactly the
complete messages, among them every accepted one as it was last updated. -/
theorem disk_queue_recovered (q : RetryConfig) (now : Int) (acts : List Action) (w : World)
    (hr : run World.step World.start acts = some w) (entries : List String)
    (hl : Lists w.dir entries) : Recovered w (readDiskQueue q now .none entries w.dir) := by
  have hw := run_world_invariant hr
  refine ⟨scheduled_once hl,?_,?_,?_⟩
  · intro id
    exact scheduled_iff (hw id).sound hl
  · intro id msg ha
    have hh := accepted_holds (hw id) ha
    refine ⟨(scheduled_iff (hw id).sound hl).mpr hh.complete,?_⟩
    have hv : view (readDiskQueue q now .none entries w.dir).dir id = view w.dir id :=
      scan_kept entries fun _ => hh.complete
    exact openMessage_holds (hv ▸ hh)
  · intro id hc
    exact incomplete_swept (hw id).sound hl hc

/-- A message is stored, its first update is cut off before the rename, and a
second message is cut off before its body is written. -/
def cutOff : List Action :=
  .store (newDelivery { id := "m1" } "a@b.example" 0) [] "text" ::
    List.replicate 11 (.call "m1" true .empty) ++
  .update (newDelivery { id := "m1" } "a@b.example" 5) ::
    List.replicate 3 (.call "m1" true .empty) ++
  .store (newDelivery { id := "m2" } "c@d.example" 7) [] "" ::
    List.replicate 4 (.call "m2" true .empty)

theorem disk_queue_recovered_cut_off :
    ∃ w entries, run World.step World.start cutOff = some w ∧
      (accepted (w.phase "m1")).isSome = true ∧ Lists w.dir entries ∧
      Recovered w (readDiskQueue ⟨900,10,fun _ => 1⟩ 0 .none entries w.dir) := by
  have hrun : (run World.step World.start cutOff).any
      (fun w => (accepted (w.phase "m1")).isSome) = true := by decide
  cases hw : run World.step World.start cutOff with
  | none => simp [hw] at hrun
  | some w =>
    obtain ⟨entries,hl⟩ := run_lists hw
    rw [hw] at hrun
    exact ⟨w,entries,rfl,hrun,hl,disk_queue_recovered _ 0 cutOff w hw entries hl⟩

end Madmail.Proofs.QueueCrash
