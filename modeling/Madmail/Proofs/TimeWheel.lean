import Madmail.Queue.TimeWheel
import Mathlib.Data.List.Nodup

namespace Madmail.Proofs.TimeWheel
open Lib Queue.TimeWheel

variable {V : Type}
variable {lo now t : Int} {s : State V} {e : Element V}

/-- The times a run may use: the zero `Time`, which asks for an immediate
delivery, or a time in the interval the clock moves in. -/
def InWindow (lo hi t : Int) : Prop := t = 0 ∨ lo ≤ t ∧ t ≤ hi

/-- No difference of two times of the interval saturates, so comparing waits
compares times. The zero `Time` may saturate, but it is the least of all. -/
theorem sub_order (h0 : 0 ≤ lo) (hd : hi - lo ≤ maxDuration) (hn : lo ≤ now ∧ now ≤ hi)
    (ht : InWindow lo hi t) (hu : InWindow lo hi u) (h : sub t now ≤ sub u now) : t ≤ u := by
  unfold InWindow at ht hu
  simp only [sub,maxDuration,minDuration] at h hd
  omega

theorem timer_not_early (h0 : 0 ≤ lo) (hd : hi - lo ≤ maxDuration) (hn : lo ≤ now ∧ now ≤ hi)
    (ht : InWindow lo hi t) (h : now + max 0 (sub t now) ≤ clock) : t ≤ clock := by
  unfold InWindow at ht
  simp only [sub,maxDuration,minDuration] at h hd
  omega

theorem closest_some (now : Int) (b : Element V) (es : List (Element V)) :
    ∃ c, closest now (some b) es = some c ∧ (c = b ∨ c ∈ es) ∧
      sub c.slot.time now ≤ sub b.slot.time now ∧
      ∀ e ∈ es, sub c.slot.time now ≤ sub e.slot.time now := by
  induction es generalizing b with
  | nil => exact ⟨b,rfl,Or.inl rfl,Int.le_refl _,by simp⟩
  | cons e es ih =>
    by_cases hlt : sub e.slot.time now < sub b.slot.time now
    · obtain ⟨c,hc,hm,hle,hall⟩ := ih e
      refine ⟨c,by simp [closest,hlt,hc],?_,by omega,?_⟩
      · rcases hm with rfl | hm <;> simp_all
      · intro x hx
        rcases List.mem_cons.mp hx with rfl | hx
        · exact hle
        · exact hall x hx
    · obtain ⟨c,hc,hm,hle,hall⟩ := ih b
      refine ⟨c,by simp [closest,hlt,hc],?_,hle,?_⟩
      · rcases hm with rfl | hm <;> simp_all
      · intro x hx
        rcases List.mem_cons.mp hx with rfl | hx
        · omega
        · exact hall x hx

theorem closest_spec (h : closest now none es = some c) :
    c ∈ es ∧ ∀ e ∈ es, sub c.slot.time now ≤ sub e.slot.time now := by
  cases es with
  | nil => cases h
  | cons e es =>
    obtain ⟨d,hd,hm,hle,hall⟩ := closest_some now e es
    have hcd : c = d := Option.some.inj (h.symm.trans hd)
    subst d
    refine ⟨by rcases hm with rfl | hm <;> simp_all,?_⟩
    intro x hx
    rcases List.mem_cons.mp hx with rfl | hx
    · exact hle
    · exact hall x hx

/-- What `tick` knows about the element it has chosen: it is still listed, and
no listed element that was announced to `tick` has a shorter wait. Elements
appended after the scan are covered once their notification is received. -/
structure Chosen (lo clock : Int) (slots received : List (Element V)) (now : Int)
    (c : Element V) : Prop where
  listed : c ∈ slots
  ahead : ∀ e ∈ slots, e ∈ received → sub c.slot.time now ≤ sub e.slot.time now
  read : lo ≤ now ∧ now ≤ clock

def TickOK (lo clock : Int) (slots received : List (Element V)) : Pc V → Prop
  | .scan now => lo ≤ now ∧ now ≤ clock
  | .arm now c => Chosen lo clock slots received now c
  | .wait now c fireAt =>
    Chosen lo clock slots received now c ∧ now + max 0 (sub c.slot.time now) ≤ fireAt
  | _ => True

structure Invariant (lo hi : Int) (s : State V) : Prop where
  clock : lo ≤ s.clock ∧ s.clock ≤ hi
  tested : ∀ slot ∈ s.tested, InWindow lo hi slot.time
  added : ∀ e ∈ s.added, InWindow lo hi e.slot.time
  ids : s.added.map Element.id = List.range s.added.length
  split : (s.slots ++ s.dispatched.map Dispatch.element).Perm s.added
  pushed : ∀ e ∈ s.pushed, e ∈ s.added
  received : ∀ e ∈ s.received, e ∈ s.added
  tick : TickOK lo s.clock s.slots s.received s.tick
  late : 0 ≤ lo → hi - lo ≤ maxDuration → ∀ d ∈ s.dispatched, d.element.slot.time ≤ d.clock

theorem Invariant.id_inj (h : Invariant lo hi s) (ha : a ∈ s.added) (hb : b ∈ s.added)
    (he : a.id = b.id) : a = b := by
  have hn : (s.added.map Element.id).Nodup := h.ids ▸ List.nodup_range
  exact List.inj_on_of_nodup_map hn ha hb he

theorem Invariant.nodup (h : Invariant lo hi s) :
    (s.slots ++ s.dispatched.map Dispatch.element).Nodup := by
  have hn : (s.added.map Element.id).Nodup := h.ids ▸ List.nodup_range
  exact h.split.nodup_iff.mpr hn.of_map

theorem Invariant.slot_added (h : Invariant lo hi s) (he : e ∈ s.slots) : e ∈ s.added :=
  h.split.subset (List.mem_append_left _ he)

theorem Invariant.fresh (h : Invariant lo hi s) (slot : TimeSlot V) :
    (⟨s.added.length,slot⟩ : Element V) ∉ s.added := by
  intro hm
  have hid : s.added.length ∈ s.added.map Element.id := List.mem_map.mpr ⟨_,hm,rfl⟩
  rw [h.ids] at hid
  simp at hid

theorem start_invariant (lo hi : Int) (hc : lo ≤ clock ∧ clock ≤ hi) :
    Invariant lo hi (start V clock) :=
  { clock := hc, tested := by simp [start], added := by simp [start], ids := by simp [start],
    split := by simp [start], pushed := by simp [start], received := by simp [start],
    tick := trivial, late := by simp [start] }

theorem TickOK.later (h : TickOK lo clock slots received pc) (ht : clock ≤ t) :
    TickOK lo t slots received pc := by
  cases pc with
  | scan now => exact ⟨h.1,Int.le_trans h.2 ht⟩
  | arm now c => exact ⟨h.listed,h.ahead,h.read.1,Int.le_trans h.read.2 ht⟩
  | wait now c f =>
    exact ⟨⟨h.1.listed,h.1.ahead,h.1.read.1,Int.le_trans h.1.read.2 ht⟩,h.2⟩
  | top | idle | stopping | returned => trivial

theorem clock_invariant (hs : Invariant lo hi s) (ht : s.clock ≤ t) (hhi : t ≤ hi) :
    Invariant lo hi { s with clock := t } :=
  { hs with clock := ⟨Int.le_trans hs.clock.1 ht,hhi⟩, tick := hs.tick.later ht }

/-- A slot appended behind `tick`'s back is not announced yet, so it does not
concern the choice already made. -/
theorem Chosen.push (h : Chosen lo clock slots received now c) (hr : e ∉ received) :
    Chosen lo clock (slots ++ [e]) received now c := by
  refine ⟨List.mem_append_left _ h.listed,?_,h.read⟩
  intro x hx hm
  rcases List.mem_append.mp hx with hx | hx
  · exact h.ahead x hx hm
  · rw [List.mem_singleton.mp hx] at hm
    exact absurd hm hr

theorem push_invariant (hs : Invariant lo hi s) (hk : s.tested[k]? = some slot) :
    Invariant lo hi { s with
      tested := s.tested.eraseIdx k, slots := s.slots ++ [⟨s.added.length,slot⟩],
      pushed := s.pushed ++ [⟨s.added.length,slot⟩],
      added := s.added ++ [⟨s.added.length,slot⟩] } := by
  have hslot := hs.tested slot (List.mem_of_getElem? hk)
  have hnew : (⟨s.added.length,slot⟩ : Element V) ∉ s.received :=
    fun hm => hs.fresh slot (hs.received _ hm)
  refine { clock := hs.clock, tested := ?_, added := ?_, ids := ?_, split := ?_, pushed := ?_,
           received := ?_, tick := ?_, late := hs.late }
  · exact fun x hx => hs.tested x (List.mem_of_mem_eraseIdx hx)
  · intro e he
    rcases List.mem_append.mp he with he | he
    · exact hs.added e he
    · rw [List.mem_singleton.mp he]
      exact hslot
  · simp [hs.ids,List.range_succ]
  · have hp := (hs.split.append_right [(⟨s.added.length,slot⟩ : Element V)])
    refine List.Perm.trans ?_ hp
    simp only [List.append_assoc]
    exact List.Perm.append_left _ List.perm_append_comm
  · intro e he
    rcases List.mem_append.mp he with he | he
    · exact List.mem_append_left _ (hs.pushed e he)
    · exact List.mem_append_right _ he
  · exact fun e he => List.mem_append_left _ (hs.received e he)
  · have ht := hs.tick
    cases hpc : s.tick with
    | scan now => rw [hpc] at ht; exact ht
    | arm now c => rw [hpc] at ht; exact ht.push hnew
    | wait now c f => rw [hpc] at ht; exact ⟨ht.1.push hnew,ht.2⟩
    | top | idle | stopping | returned => trivial

/-- The shortcut of `selectloop`: an update that is not closer than the current
wait is ignored, any other one sends `tick` back to a full scan. -/
theorem receive_ok (h : TickOK lo clock slots received pc) (hr : receive e pc = some next) :
    TickOK lo clock slots (received ++ [e]) next := by
  cases pc with
  | idle => cases hr; trivial
  | wait now c f =>
    simp only [receive] at hr
    split at hr
    · rename_i hle
      cases hr
      refine ⟨⟨h.1.listed,?_,h.1.read⟩,h.2⟩
      intro x hx hm
      rcases List.mem_append.mp hm with hm | hm
      · exact h.1.ahead x hx hm
      · rw [List.mem_singleton.mp hm]
        exact hle
    · cases hr
      trivial
  | top | scan _ | arm _ _ | stopping | returned => cases hr

section Moves
variable (hs : Invariant lo hi s)
include hs

theorem send_invariant (hk : s.pushed[k]? = some e) (hr : receive e s.tick = some pc) :
    Invariant lo hi { s with
      tick := pc, pushed := s.pushed.eraseIdx k, received := s.received ++ [e] } := by
  refine { hs with pushed := ?_, received := ?_, tick := receive_ok hs.tick hr }
  · exact fun x hx => hs.pushed x (List.mem_of_mem_eraseIdx hx)
  · intro x hx
    rcases List.mem_append.mp hx with hx | hx
    · exact hs.received x hx
    · rw [List.mem_singleton.mp hx]
      exact hs.pushed e (List.mem_of_getElem? hk)

theorem fire_split (hc : c ∈ s.slots) :
    (s.slots.filter (fun e => e.id != c.id) ++
      (s.dispatched ++ [Dispatch.mk c clock]).map Dispatch.element).Perm s.added := by
  obtain ⟨before,after,he⟩ := List.append_of_mem hc
  have hn : (before ++ c :: after).Nodup := he ▸ (List.nodup_append.mp hs.nodup).1
  have hkeep : ∀ e ∈ before ++ after, (e.id != c.id) = true := by
    intro e hm
    have hms : e ∈ s.slots := by rw [he]; simp at hm ⊢; tauto
    have hne : e ≠ c := by
      rintro rfl
      simp only [List.nodup_append,List.nodup_cons,List.mem_cons] at hn
      rcases List.mem_append.mp hm with hm | hm
      · exact hn.2.2 e hm e (Or.inl rfl) rfl
      · exact hn.2.1.1 hm
    have hid : e.id ≠ c.id := fun h => hne (hs.id_inj (hs.slot_added hms) (hs.slot_added hc) h)
    simpa using hid
  have hf : s.slots.filter (fun e => e.id != c.id) = before ++ after := by
    rw [← List.filter_eq_self.mpr hkeep,he]
    simp
  refine List.Perm.trans ?_ hs.split
  rw [hf,he,List.map_append]
  simp only [List.map_cons,List.map_nil,List.append_assoc,List.cons_append]
  refine List.Perm.append_left before ?_
  rw [← List.append_assoc]
  exact List.perm_append_comm.trans (by simp)

theorem fire_invariant
    (hpc : s.tick = .wait now c fireAt) (hf : fireAt ≤ s.clock) :
    Invariant lo hi { s with
      tick := .top, slots := s.slots.filter (fun e => e.id != c.id),
      dispatched := s.dispatched ++ [⟨c,s.clock⟩] } := by
  have ht := hs.tick
  rw [hpc] at ht
  obtain ⟨hc,hfire⟩ := ht
  refine { hs with split := fire_split hs hc.listed, tick := trivial, late := ?_ }
  intro h0 hd d hm
  rcases List.mem_append.mp hm with hm | hm
  · exact hs.late h0 hd d hm
  · rw [List.mem_singleton.mp hm]
    have hn : lo ≤ now ∧ now ≤ hi := ⟨hc.read.1,Int.le_trans hc.read.2 hs.clock.2⟩
    exact timer_not_early h0 hd hn (hs.added c (hs.slot_added hc.listed)) (Int.le_trans hfire hf)

theorem scan_invariant (hpc : s.tick = .scan now)
    (hc : closest now none s.slots = some c) : Invariant lo hi { s with tick := .arm now c } := by
  have ht := hs.tick
  rw [hpc] at ht
  obtain ⟨hm,hall⟩ := closest_spec hc
  exact { hs with tick := ⟨hm,fun e he _ => hall e he,ht⟩ }

theorem newTimer_invariant (hpc : s.tick = .arm now c) :
    Invariant lo hi { s with tick := .wait now c (newTimer s.clock (sub c.slot.time now)) } := by
  have ht := hs.tick
  rw [hpc] at ht
  refine { hs with tick := ⟨ht,?_⟩ }
  have := ht.read.2
  simp only [Queue.TimeWheel.newTimer]
  omega

end Moves

/-- The clock and the requested times stay in the window. -/
def ActionOK (lo hi : Int) : Action V → Prop
  | .clock t => t ≤ hi
  | .addTest slot => InWindow lo hi slot.time
  | _ => True

theorem step_invariant (s : State V) (a : Action V) (t : State V) (hs : Invariant lo hi s)
    (hok : ActionOK lo hi a) (h : step s a = some t) : Invariant lo hi t := by
  revert h
  fun_cases step s a <;> intro h <;> cases h
  case case1.refl hu => exact clock_invariant hs hu hok
  case case3.refl => exact hs
  case case4.refl =>
    refine { hs with tested := ?_ }
    intro x hx
    rcases List.mem_append.mp hx with hx | hx
    · exact hs.tested x hx
    · rw [List.mem_singleton.mp hx]
      exact hok
  case case6.refl hk _ => exact push_invariant hs hk
  case case8.refl =>
    exact { hs with pushed := fun x hx => hs.pushed x (List.mem_of_mem_eraseIdx hx) }
  case case10.refl hk _ _ hpc => exact send_invariant hs hk hpc
  case case11.refl => exact { hs with tick := ⟨hs.clock.1,Int.le_refl _⟩ }
  case case14.refl hpc _ hc => exact scan_invariant hs hpc hc
  case case16.refl hpc => exact newTimer_invariant hs hpc
  case case18.refl hpc hf => exact fire_invariant hs hpc hf
  case case21.refl | case28.refl => exact { hs with }
  all_goals exact { hs with tick := trivial }

theorem ActionOK.wider {a : Action V} (h : ActionOK lo hi a) (hlo : lo' ≤ lo) (hhi : hi ≤ hi') :
    ActionOK lo' hi' a := by
  cases a with
  | clock t => exact Int.le_trans h hhi
  | addTest slot => exact h.imp_right fun h => ⟨Int.le_trans hlo h.1,Int.le_trans h.2 hhi⟩
  | _ => trivial

/-- A run uses finitely many times, so that there is a window for it, of any length. -/
theorem exists_window (clock : Int) (actions : List (Action V)) :
    ∃ lo hi, (lo ≤ clock ∧ clock ≤ hi) ∧ ∀ a ∈ actions, ActionOK lo hi a := by
  induction actions with
  | nil => exact ⟨clock,clock,⟨Int.le_refl _,Int.le_refl _⟩,by simp⟩
  | cons a actions ih =>
    obtain ⟨lo,hi,hc,hok⟩ := ih
    have hone : ∃ t, ActionOK t t a := by
      cases a with
      | clock t => exact ⟨t,Int.le_refl t⟩
      | addTest slot => exact ⟨slot.time,.inr ⟨Int.le_refl _,Int.le_refl _⟩⟩
      | _ => exact ⟨0,trivial⟩
    obtain ⟨t,ht⟩ := hone
    refine ⟨min lo t,max hi t,by omega,List.forall_mem_cons.mpr ⟨?_,fun b hb => ?_⟩⟩
    · exact ht.wider (Int.min_le_right _ _) (Int.le_max_right _ _)
    · exact (hok b hb).wider (Int.min_le_left _ _) (Int.le_max_left _ _)

/-- Each slot added so far is listed exactly until it is dispatched, and none is
dispatched twice. -/
structure Listed (s : State V) : Prop where
  once : (s.dispatched.map Dispatch.element).Nodup
  kept : ∀ e ∈ s.added, e ∈ s.slots ↔ e ∉ s.dispatched.map Dispatch.element

def NeverEarly (s : State V) : Prop := ∀ d ∈ s.dispatched, d.element.slot.time ≤ d.clock

/-- `tick` waits for the earliest slot it has been told about. -/
def WaitsForEarliest (s : State V) : Prop :=
  ∀ now c fireAt, s.tick = .wait now c fireAt →
    ∀ e ∈ s.slots, e ∈ s.received → c.slot.time ≤ e.slot.time

theorem Invariant.listed (hs : Invariant lo hi s) : Listed s := by
  obtain ⟨_,hn,hdisj⟩ := List.nodup_append.mp hs.nodup
  refine ⟨hn,fun e he => ⟨fun hl hm => hdisj e hl e hm rfl,fun hm => ?_⟩⟩
  rcases List.mem_append.mp (hs.split.symm.subset he) with hl | hl
  · exact hl
  · exact absurd hl hm

theorem Invariant.earliest (h0 : 0 ≤ lo) (hd : hi - lo ≤ maxDuration) (hs : Invariant lo hi s) :
    WaitsForEarliest s := by
  intro now c fireAt hpc e he hr
  have ht := hs.tick
  rw [hpc] at ht
  obtain ⟨hc,_⟩ := ht
  have hn : lo ≤ now ∧ now ≤ hi := ⟨hc.read.1,Int.le_trans hc.read.2 hs.clock.2⟩
  exact sub_order h0 hd hn (hs.added c (hs.slot_added hc.listed))
    (hs.added e (hs.slot_added he)) (hc.ahead e he hr)

/-- Every interleaving of `tick`, `Close` and any number of `Add` calls lists and
dispatches each slot once. No slot is early, and `tick` waits for the earliest, if the
clock readings and the requested times, the zero `Time` apart, lie within one
`time.Duration` of each other. -/
theorem wheel_sound (hr : run step (start V clock) actions = some s) :
    Listed s ∧ ∀ lo hi, 0 ≤ lo → hi - lo ≤ maxDuration → lo ≤ clock ∧ clock ≤ hi →
      (∀ a ∈ actions, ActionOK lo hi a) → NeverEarly s ∧ WaitsForEarliest s := by
  have hinv : ∀ {lo hi}, lo ≤ clock ∧ clock ≤ hi → (∀ a ∈ actions, ActionOK lo hi a) →
      Invariant lo hi s :=
    fun hc hok => run_invariant step_invariant (start_invariant _ _ hc) hok hr
  obtain ⟨lo,hi,hc,hok⟩ := exists_window clock actions
  refine ⟨(hinv hc hok).listed,fun lo hi h0 hd hc hok => ?_⟩
  exact ⟨(hinv hc hok).late h0 hd,(hinv hc hok).earliest h0 hd⟩

def twoSlots : List (Action Nat) :=
  [.addTest ⟨20,1⟩,.addPush 0,.readNow,.scan,.newTimer,.addTest ⟨15,2⟩,.addPush 0,
    .addSend 0,.addSend 0,.readNow,.scan,.newTimer,.clock 15,.fire,
    .readNow,.scan,.newTimer,.clock 30,.fire]

theorem wheel_sound_two_slots : ∃ s, run step (start Nat 10) twoSlots = some s ∧
    Listed s ∧ NeverEarly s ∧ WaitsForEarliest s := by
  obtain ⟨s,hs⟩ := Option.isSome_iff_exists.mp
    (show (run step (start Nat 10) twoSlots).isSome = true by decide)
  obtain ⟨hlisted,htimely⟩ := wheel_sound hs
  refine ⟨s,hs,hlisted,htimely 10 30 (by decide) (by decide) (by decide) ?_⟩
  simp [twoSlots,ActionOK,InWindow]

/-- Slots 300 and 400 years ahead saturate `Time.Sub`. A timer for one fires after the
longest `time.Duration`, about 292 years, and the slot is dispatched early; and a wait for
the later one is kept when `tick` is told of the other. -/
theorem far_target_dispatched_early :
    (¬ ∀ (actions : List (Action Unit)) (s : State Unit),
      run step (start Unit 63930000000000000000) actions = some s → NeverEarly s) ∧
    ¬ ∀ (actions : List (Action Unit)) (s : State Unit),
      run step (start Unit 63930000000000000000) actions = some s → WaitsForEarliest s := by
  constructor
  · intro h
    have hs := h [.addTest ⟨73397280000000000000,()⟩,.addPush 0,.readNow,.scan,.newTimer,
      .addSend 0,.clock 73153372036854775807,.fire] _ rfl
    exact absurd (hs _ (List.mem_singleton.mpr rfl)) (by decide)
  · intro h
    have hs := h [.addTest ⟨76553280000000000000,()⟩,.addPush 0,.readNow,.scan,.newTimer,
      .addTest ⟨73397280000000000000,()⟩,.addPush 0,.addSend 0,.addSend 0] _ rfl
    exact absurd (hs _ _ _ rfl ⟨1,⟨73397280000000000000,()⟩⟩ (by decide) (by decide)) (by decide)

end Madmail.Proofs.TimeWheel
