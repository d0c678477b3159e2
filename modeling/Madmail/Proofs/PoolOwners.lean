import Madmail.Smtpconn.PoolSteps
import Mathlib.Logic.Relation

namespace Madmail.Proofs.PoolOwners
open Lib Pool PoolSteps List

variable {cfg : Config} {w w' w₁ : World} {a : Action} {ch conn t : Nat}

def held : GetStage → List Nat
  | .close _ conn | .examine _ conn | .got conn => [conn]
  | _ => []

def drains : GetStage → Option Nat
  | .drain ch | .close ch _ => some ch
  | _ => none

def holds (h : Holder) : List Nat :=
  (match h.task with
    | .returnConn _ conn => [conn]
    | _ => []) ++ h.conn.toList

/-- How often a connection is to be found: in the channels, with the calls of `Get`,
with the call that has the lock, and among those that are closed or about to be. -/
def occurrences (t : Nat) (w : World) : Nat :=
  (w.chans.flatMap Chan.buf).count t + (w.gets.flatMap held).count t +
    (w.lock.elim [] holds).count t + w.closing.count t + w.closed.count t

section Steps

theorem take_cases (h : w.take ch = some (conn,w₁)) :
    ∃ rest closed, w.chans[ch]? = some ⟨conn :: rest,closed⟩ ∧
      w₁ = { w with chans := w.chans.set ch ⟨rest,closed⟩ } := by
  unfold World.take at h
  split at h
  · rename_i rest closed hch
    cases h
    exact ⟨rest,closed,hch,rfl⟩
  · cases h

variable (cfg : Config) (w : World) in
inductive Moves : Action → World → Prop where
  | call (key : String) : Moves (.get key) { w with gets := w.gets ++ [.start key] }
  | went (a : Action) (i : Nat) (st st' : GetStage) (hi : w.gets[i]? = some st)
      (hheld : held st' = held st)
      (hdrains : drains st = none ∨ ∃ ch, drains st = some ch ∧ w.take ch = none)
      (ha : ∀ key, a ≠ .enterReturn key) :
      Moves a { w with gets := w.gets.set i st' }
  | dropped (i : Nat) (now : Int) (key : String) (bucket : Slot)
      (hi : w.gets[i]? = some (.start key)) (hbucket : w.slots.lookup key = some bucket)
      (hlock : w.lock = none) :
      Moves (.enterGet i now)
        { w.drop key bucket with gets := w.gets.set i (.drain bucket.chan) }
  | received (i : Nat) (st st' : GetStage) (ch conn : Nat) (w₁ : World)
      (hi : w.gets[i]? = some st) (hst : held st = []) (hst' : held st' = [conn])
      (hdrains : drains st' = drains st) (htake : w.take ch = some (conn,w₁)) :
      Moves (.receive i) { w₁ with gets := w.gets.set i st' }
  | closed (i : Nat) (ch conn : Nat) (hi : w.gets[i]? = some (.close ch conn)) :
      Moves (.closeConn i)
        { w with gets := w.gets.set i (.drain ch), closed := w.closed ++ [conn] }
  | discarded (i : Nat) (ch conn : Nat) (hi : w.gets[i]? = some (.examine ch conn)) :
      Moves (.examine i false)
        { w with gets := w.gets.set i (.receive ch), closing := w.closing ++ [conn] }
  | ran (conn : Nat) (h : conn ∈ w.closing) :
      Moves (.runClose conn)
        { w with closing := w.closing.erase conn, closed := w.closed ++ [conn] }
  | entered (a : Action) (task : Task) (hlock : w.lock = none)
      (htask : task = .cleanUp ∨ task = .close) (ha : ∀ key, a ≠ .enterReturn key) :
      Moves a { w with lock := some { task, todo := w.names } }
  | lost (key : String) (hkeys : w.keys = none) :
      Moves (.enterReturn key) { w with returned := w.returned + 1 }
  | returning (key : String) (todo : List String) (hlock : w.lock = none)
      (hkeys : w.keys ≠ none) :
      Moves (.enterReturn key)
        { w with
          lock := some { task := .returnConn key w.returned, todo }
          returned := w.returned + 1 }
  | stopped (h : w.shutdown = .idle) : Moves .stop { w with shutdown := .stopped }
  | skipped (key : String) (now : Int) (task : Task) (todo : List String)
      (hlock : w.lock = some { task, todo }) (htask : task ≠ .close) :
      Moves (.visit key now) { w with lock := some { task, todo := todo.erase key } }
  | swept (key : String) (now : Int) (task : Task) (todo : List String) (bucket : Slot)
      (hlock : w.lock = some { task, todo }) (hbucket : w.slots.lookup key = some bucket) :
      Moves (.visit key now)
        { w.drop key bucket with
          lock := some { task, todo := todo.erase key, drain := some bucket.chan } }
  | drained (task : Task) (todo : List String) (ch : Nat)
      (hlock : w.lock = some { task, todo, drain := some ch }) (htake : w.take ch = none) :
      Moves .drain { w with lock := some { task, todo } }
  | freed (todo : List String) (ch conn : Nat) (w₁ : World)
      (hlock : w.lock = some { task := .cleanUp, todo, drain := some ch })
      (htake : w.take ch = some (conn,w₁)) :
      Moves .drain { w₁ with closing := w.closing ++ [conn] }
  | taken (task : Task) (todo : List String) (ch conn : Nat) (w₁ : World)
      (hlock : w.lock = some { task, todo, drain := some ch })
      (htake : w.take ch = some (conn,w₁)) :
      Moves .drain
        { w₁ with lock := some { task, todo, drain := some ch, conn := some conn } }
  | closedDrained (task : Task) (todo : List String) (drain : Option Nat) (conn : Nat)
      (hlock : w.lock = some { task, todo, drain, conn := some conn }) :
      Moves .closeDrained
        { w with lock := some { task, todo, drain }, closed := w.closed ++ [conn] }
  | cleaned (now : Int) (hlock : w.lock = some { task := .cleanUp }) :
      Moves (.leave now) { w with lock := none }
  | finished (now : Int) (hlock : w.lock = some { task := .close }) :
      Moves (.leave now) { w with lock := none, keys := none, shutdown := .finished }
  | sent (now : Int) (key : String) (conn : Nat) (bucket : Slot)
      (hlock : w.lock = some { task := .returnConn key conn })
      (hbucket : w.slots.lookup key = some bucket) :
      Moves (.leave now) { w.send cfg bucket.chan conn with lock := none }
  | opened (now : Int) (key : String) (conn : Nat)
      (hlock : w.lock = some { task := .returnConn key conn })
      (hbucket : w.slots.lookup key = none) :
      Moves (.leave now)
        { World.send cfg
            { w with
              chans := w.chans ++ [{ buf := [] }]
              keys := w.keys.map (fun slots => slots ++ [(key,⟨w.chans.length,now⟩)]) }
            w.chans.length conn with
          lock := none }

theorem moves_of_step (h : w.step cfg a = some w') : Moves cfg w a w' := by
  revert h
  -- the cases are those of the definition, less the ones in which there is no step
  fun_cases World.step cfg w a <;> intro h <;> cases h
  · exact .call _
  · rename_i hi _ _
    exact .went _ _ _ _ hi rfl (.inl rfl) nofun
  · exact .dropped _ _ _ _ ‹_› ‹_› ‹_›
  · rename_i hi _ _ _ _
    exact .went _ _ _ _ hi rfl (.inl rfl) nofun
  · rename_i hi _
    exact .went _ _ _ _ hi rfl (.inl rfl) nofun
  · rename_i hi _ _ htake
    obtain ⟨rest,closed, -,rfl⟩ := take_cases htake
    exact .received _ _ _ _ _ _ hi rfl rfl rfl htake
  · rename_i hi htake
    exact .went _ _ _ _ hi rfl (.inr ⟨_,rfl,htake⟩) nofun
  · rename_i hi _ _ htake
    obtain ⟨rest,closed, -,rfl⟩ := take_cases htake
    exact .received _ _ _ _ _ _ hi rfl rfl rfl htake
  · exact .closed _ _ _ ‹_›
  · rename_i hi
    exact .went _ _ _ _ hi rfl (.inl rfl) nofun
  · rename_i usable _ _ _ hnot
    obtain rfl : usable = false := Bool.eq_false_iff.mpr hnot
    exact .discarded _ _ _ ‹_›
  · exact .ran _ ‹_›
  · rename_i hlock
    exact .entered _ _ (Option.not_isSome_iff_eq_none.mp hlock) (.inl rfl) nofun
  · exact .lost _ ‹_›
  · rename_i hlock slots hkeys _
    exact .returning _ _ (Option.not_isSome_iff_eq_none.mp hlock) (by simp [hkeys])
  · exact .stopped ‹_›
  · rename_i hlock
    exact .entered _ _ (Option.not_isSome_iff_eq_none.mp (not_or.mp hlock).1) (.inr rfl) nofun
  · rename_i hfresh
    exact .skipped _ _ _ _ ‹_› hfresh.1
  · exact .swept _ _ _ _ _ ‹_› ‹_›
  · exact .drained _ _ _ ‹_› ‹_›
  · rename_i htake _
    obtain ⟨rest,closed, -,rfl⟩ := take_cases htake
    exact .freed _ _ _ _ ‹_› htake
  · exact .taken _ _ _ _ _ ‹_› ‹_›
  · exact .closedDrained _ _ _ _ ‹_›
  · exact .cleaned _ ‹_›
  · exact .finished _ ‹_›
  · exact .sent _ _ _ _ ‹_› ‹_›
  · exact .opened _ _ _ ‹_› ‹_›

end Steps

section Sound

/-- Somebody is going to look into the channel: it is that of a bucket, or a call is
emptying it. -/
def Watched (w : World) (ch : Nat) : Prop :=
  ch ∈ w.slots.map (·.2.chan) ∨ (∃ st ∈ w.gets, drains st = some ch) ∨
    ∃ h, w.lock = some h ∧ h.drain = some ch

/-- What the lock protects, and what becomes of the channels that are out of it. -/
structure Sound (w : World) : Prop where
  intact : w.panicked = false
  names : w.names.Nodup
  chans : (w.slots.map (·.2.chan)).Nodup
  live : ∀ entry ∈ w.slots, ∃ buf, w.chans[entry.2.chan]? = some ⟨buf,false⟩
  watched : ∀ (ch : Nat) (c : Chan), w.chans[ch]? = some c → c.buf ≠ [] → Watched w ch
  -- `Close` visits all the buckets
  left : ∀ h, w.lock = some h → h.task = .close → ∀ name ∈ w.names, name ∈ h.todo
  kept : ∀ h key conn, w.lock = some h → h.task = .returnConn key conn → w.keys ≠ none
  shut : w.shutdown = .finished → w.keys = none

def Lesser (w w' : World) : Prop :=
  ∀ ch : Nat, (w'.chans[ch]?).map Chan.closed = (w.chans[ch]?).map Chan.closed ∧
    ∀ c', w'.chans[ch]? = some c' → c'.buf ≠ [] → ∃ c, w.chans[ch]? = some c ∧ c.buf ≠ []

theorem lesser_refl (h : w'.chans = w.chans) : Lesser w w' := by
  intro ch
  rw [h]
  exact ⟨rfl,fun c hc hbuf => ⟨c,hc,hbuf⟩⟩

theorem take_lesser (h : w.take ch = some (conn,w₁)) : Lesser w w₁ := by
  obtain ⟨rest,closed,hch,rfl⟩ := take_cases h
  have hlt : ch < w.chans.length := (List.getElem?_eq_some_iff.mp hch).1
  intro ch'
  by_cases hsame : ch = ch'
  · subst hsame
    rw [getElem?_set_self hlt,hch]
    exact ⟨rfl,fun c _ _ => ⟨_,rfl,nofun⟩⟩
  · rw [getElem?_set_ne hsame]
    exact ⟨rfl,fun c hc hbuf => ⟨c,hc,hbuf⟩⟩

theorem buf_of_take (h : w.take ch = none) (hch : w.chans[ch]? = some c) : c.buf = [] := by
  obtain ⟨buf,closed⟩ := c
  cases buf with
  | nil => rfl
  | cons conn rest =>
    unfold World.take at h
    rw [hch] at h
    cases h

theorem sound_of_lesser (hw : Sound w) (hchans : Lesser w w') (hkeys : w'.keys = w.keys)
    (hpanicked : w'.panicked = w.panicked)
    (hshut : w'.shutdown = .finished → w.shutdown = .finished)
    (hleft : ∀ h, w'.lock = some h → h.task = .close → ∀ name ∈ w'.names, name ∈ h.todo)
    (hkept : ∀ h key conn, w'.lock = some h → h.task = .returnConn key conn → w'.keys ≠ none)
    (hwatched : ∀ (ch : Nat) (c : Chan), w.chans[ch]? = some c → c.buf ≠ [] → Watched w ch →
      Watched w' ch) : Sound w' := by
  have hslots : w'.slots = w.slots := congrArg (Option.getD · []) hkeys
  have hnames : w'.names = w.names := congrArg (List.map Prod.fst) hslots
  refine ⟨hpanicked.trans hw.intact,?_,?_,?_,?_,hleft,hkept,fun h => ?_⟩
  · rw [hnames]
    exact hw.names
  · rw [hslots]
    exact hw.chans
  · intro entry hentry
    rw [hslots] at hentry
    obtain ⟨buf,hlive⟩ := hw.live entry hentry
    have hclosed := (hchans entry.2.chan).1
    rw [hlive] at hclosed
    obtain ⟨⟨buf',closed⟩,hc',hfalse⟩ := Option.map_eq_some_iff.mp hclosed
    cases hfalse
    exact ⟨buf',hc'⟩
  · intro ch c' hc' hbuf
    obtain ⟨c,hc,hbuf⟩ := (hchans ch).2 c' hc' hbuf
    exact hwatched ch c hc hbuf (hw.watched ch c hc hbuf)
  · rw [hkeys]
    exact hw.shut (hshut h)

theorem drains_set {gets : List GetStage} (hi : gets[i]? = some st)
    (hst : drains st ≠ some ch ∨ drains st' = some ch) (h : ∃ s ∈ gets, drains s = some ch) :
    ∃ s ∈ gets.set i st', drains s = some ch := by
  obtain ⟨s,hs,hdrains⟩ := h
  obtain ⟨j,hj⟩ := mem_iff_getElem?.mp hs
  by_cases hij : i = j
  · subst hij
    cases hi.symm.trans hj
    obtain hst | hst := hst
    · exact absurd hdrains hst
    · exact ⟨st',List.mem_set (List.getElem?_eq_some_iff.mp hi).1 st',hst⟩
  · refine ⟨s,mem_of_getElem? (i := j) ?_,hdrains⟩
    rw [getElem?_set_ne hij]
    exact hj

theorem watched_mono (hslots : w'.slots = w.slots)
    (hgets : (∃ st ∈ w.gets, drains st = some ch) → ∃ st ∈ w'.gets, drains st = some ch)
    (hlock : ∀ h, w.lock = some h → h.drain = some ch → ∃ h', w'.lock = some h' ∧ h'.drain = some ch)
    (h : Watched w ch) : Watched w' ch := by
  obtain h | h | ⟨holder,hholder,hdrain⟩ := h
  · refine .inl ?_
    rw [hslots]
    exact h
  · exact .inr (.inl (hgets h))
  · exact .inr (.inr (hlock holder hholder hdrain))

theorem sound_of_gets (hw : Sound w) (hchans : Lesser w w') (hkeys : w'.keys = w.keys)
    (hlock : w'.lock = w.lock) (hpanicked : w'.panicked = w.panicked)
    (hshut : w'.shutdown = .finished → w.shutdown = .finished)
    (hgets : ∀ (ch : Nat) (c : Chan), w.chans[ch]? = some c → c.buf ≠ [] →
      (∃ st ∈ w.gets, drains st = some ch) → ∃ st ∈ w'.gets, drains st = some ch) : Sound w' := by
  have hslots : w'.slots = w.slots := congrArg (Option.getD · []) hkeys
  have hnames : w'.names = w.names := congrArg (List.map Prod.fst) hslots
  refine sound_of_lesser hw hchans hkeys hpanicked hshut ?_ ?_
    fun ch c hc hbuf => watched_mono hslots (hgets ch c hc hbuf) ?_
  · rw [hlock,hnames]
    exact hw.left
  · rw [hlock,hkeys]
    exact hw.kept
  · rw [hlock]
    exact fun h hh hdrain => ⟨h,hh,hdrain⟩

theorem sound_of_holder (hw : Sound w) (hlock : w.lock = some h) (hlock' : w'.lock = some h')
    (hchans : Lesser w w') (hkeys : w'.keys = w.keys) (hpanicked : w'.panicked = w.panicked)
    (hshut : w'.shutdown = w.shutdown) (hgets : w'.gets = w.gets) (htask : h'.task = h.task)
    (htodo : h.task = .close → h'.todo = h.todo)
    (hdrain : ∀ (ch : Nat) (c : Chan), w.chans[ch]? = some c → c.buf ≠ [] → h.drain = some ch →
      h'.drain = some ch) : Sound w' := by
  have hslots : w'.slots = w.slots := congrArg (Option.getD · []) hkeys
  have hnames : w'.names = w.names := congrArg (List.map Prod.fst) hslots
  refine sound_of_lesser hw hchans hkeys hpanicked (fun h => hshut ▸ h) (fun h₁ hh₁ hclose => ?_)
    (fun h₁ key conn hh₁ hreturn => ?_) (fun ch c hc hbuf => watched_mono hslots ?_ ?_)
  · cases hlock'.symm.trans hh₁
    rw [hnames,htodo (htask ▸ hclose)]
    exact hw.left h hlock (htask ▸ hclose)
  · cases hlock'.symm.trans hh₁
    rw [hkeys]
    exact hw.kept h key conn hlock (htask ▸ hreturn)
  · rw [hgets]
    exact fun h => h
  · intro h₁ hh₁ hd
    cases hlock.symm.trans hh₁
    exact ⟨h',hlock',hdrain ch c hc hbuf hd⟩

theorem slots_drop (hkeys : w'.keys = w.keys.map (fun slots => slots.filter (fun e => e.1 ≠ key))) :
    w'.slots = w.slots.filter (fun e => e.1 ≠ key) := by
  unfold World.slots
  rw [hkeys]
  cases w.keys <;> rfl

theorem drop_eq (hw : Sound w) (hbucket : w.slots.lookup key = some bucket) :
    ∃ buf, w.chans[bucket.chan]? = some ⟨buf,false⟩ ∧
      w.drop key bucket =
        { w with
          keys := w.keys.map (fun slots => slots.filter (fun e => e.1 ≠ key))
          chans := w.chans.set bucket.chan ⟨buf,true⟩ } := by
  obtain ⟨buf,hlive⟩ := hw.live _ (mem_of_lookup hbucket)
  refine ⟨buf,hlive,?_⟩
  unfold World.drop
  rw [hlive]

theorem sound_of_drop (hw : Sound w) (hbucket : w.slots.lookup key = some bucket)
    (hkeys : w'.keys = w.keys.map (fun slots => slots.filter (fun e => e.1 ≠ key)))
    (hchans : w'.chans = w.chans.set bucket.chan ⟨buf,true⟩)
    (hpanicked : w'.panicked = w.panicked) (hshut : w'.shutdown = w.shutdown)
    (hleft : ∀ h, w'.lock = some h → h.task = .close → ∀ name ∈ w.names, name ≠ key → name ∈ h.todo)
    (hkept : ∀ h k conn, w'.lock = some h → h.task = .returnConn k conn → w.keys ≠ none)
    (hhere : Watched w' bucket.chan)
    (hgets : ∀ ch, (∃ st ∈ w.gets, drains st = some ch) → ∃ st ∈ w'.gets, drains st = some ch)
    (hlock : ∀ h ch, w.lock = some h → h.drain = some ch →
      ∃ h', w'.lock = some h' ∧ h'.drain = some ch) : Sound w' := by
  have hmem := mem_of_lookup hbucket
  have hslots := slots_drop hkeys
  have hsub : w'.slots.Sublist w.slots := by
    rw [hslots]
    exact filter_sublist
  refine ⟨hpanicked.trans hw.intact,hw.names.sublist (hsub.map _),hw.chans.sublist (hsub.map _),
    ?_,?_,?_,?_,?_⟩
  · intro entry hentry
    have hold := hsub.subset hentry
    obtain ⟨buf',hlive'⟩ := hw.live entry hold
    refine ⟨buf',?_⟩
    rw [hchans,getElem?_set_ne]
    · exact hlive'
    · intro hsame
      have heq := inj_on_of_nodup_map hw.chans hmem hold hsame
      rw [hslots] at hentry
      have hne := of_decide_eq_true (mem_filter.mp hentry).2
      rw [← heq] at hne
      exact hne rfl
  · intro ch c hc hbuf
    by_cases hsame : bucket.chan = ch
    · subst hsame
      exact hhere
    · rw [hchans,getElem?_set_ne hsame] at hc
      obtain hw' | hw' | ⟨holder,hholder,hdrain⟩ := hw.watched ch c hc hbuf
      · obtain ⟨entry,hentry,hch⟩ := mem_map.mp hw'
        refine .inl (mem_map.mpr ⟨entry,?_,hch⟩)
        rw [hslots]
        refine mem_filter.mpr ⟨hentry,decide_eq_true fun hname => ?_⟩
        have heq := inj_on_of_nodup_map hw.names hmem hentry hname.symm
        rw [← heq] at hch
        exact hsame hch
      · exact .inr (.inl (hgets ch hw'))
      · exact .inr (.inr (hlock holder ch hholder hdrain))
  · intro h hholder hclose name hname
    unfold World.names at hname
    rw [hslots] at hname
    obtain ⟨entry,hentry,heq⟩ := mem_map.mp hname
    obtain ⟨hentry,hne⟩ := mem_filter.mp hentry
    subst heq
    exact hleft h hholder hclose _ (mem_map.mpr ⟨entry,hentry,rfl⟩) (of_decide_eq_true hne)
  · intro h k conn hholder htask
    rw [hkeys]
    have hsome := hkept h k conn hholder htask
    intro hnone
    exact hsome (Option.map_eq_none_iff.mp hnone)
  · intro h
    rw [hkeys,hw.shut (hshut ▸ h)]
    rfl

theorem sound_send (hw : Sound w) (hmem : (key,bucket) ∈ w.slots) :
    Sound (w.send cfg bucket.chan conn) := by
  obtain ⟨buf,hlive⟩ := hw.live _ hmem
  have hlt : bucket.chan < w.chans.length := (List.getElem?_eq_some_iff.mp hlive).1
  unfold World.send
  rw [hlive]
  dsimp only
  split
  · refine ⟨hw.intact,hw.names,hw.chans,fun entry hentry => ?_,fun ch c hc hbuf => ?_,hw.left,
      hw.kept,hw.shut⟩
    · by_cases hsame : bucket.chan = entry.2.chan
      · rw [← hsame,getElem?_set_self hlt]
        exact ⟨_,rfl⟩
      · rw [getElem?_set_ne hsame]
        exact hw.live entry hentry
    · by_cases hsame : bucket.chan = ch
      · subst hsame
        exact .inl (mem_map.mpr ⟨_,hmem,rfl⟩)
      · rw [getElem?_set_ne hsame] at hc
        exact hw.watched ch c hc hbuf
  · exact ⟨hw.intact,hw.names,hw.chans,hw.live,hw.watched,hw.left,hw.kept,hw.shut⟩

theorem send_lock : (w.send cfg ch conn).lock = w.lock := by
  unfold World.send
  split
  · split <;> rfl
  · rfl

theorem sound_unlock (hw : Sound w) (hlock : w.lock = some h) (hdrain : h.drain = none) :
    Sound { w with lock := none } := by
  refine ⟨hw.intact,hw.names,hw.chans,hw.live,fun ch c hc hbuf => ?_,nofun,
    nofun,hw.shut⟩
  refine watched_mono (w := w) rfl (fun h => h) (fun holder hholder hch => ?_) (hw.watched ch c hc hbuf)
  cases hlock.symm.trans hholder
  rw [hdrain] at hch
  cases hch

theorem sound_opened (hw : Sound w) (now : Int) (hlock : w.lock = some h)
    (htask : h.task = .returnConn key conn) (hbucket : w.slots.lookup key = none) :
    Sound
      { w with
        chans := w.chans ++ [{ buf := [] }]
        keys := w.keys.map (fun slots => slots ++ [(key,⟨w.chans.length,now⟩)]) } ∧
    (key,(⟨w.chans.length,now⟩ : Slot)) ∈
      (w.keys.map (fun slots => slots ++ [(key,(⟨w.chans.length,now⟩ : Slot))])).getD [] := by
  have hsome := hw.kept h key conn hlock htask
  obtain ⟨slots,hkeys⟩ := Option.ne_none_iff_exists'.mp hsome
  have hslots : w.slots = slots := by
    unfold World.slots
    rw [hkeys]
    rfl
  rw [hkeys]
  have hold : ∀ entry ∈ slots, entry.2.chan < w.chans.length := by
    intro entry hentry
    rw [← hslots] at hentry
    obtain ⟨buf,hlive⟩ := hw.live entry hentry
    exact (List.getElem?_eq_some_iff.mp hlive).1
  have hnames := hw.names
  have hchans := hw.chans
  unfold World.names at hnames
  rw [hslots] at hnames hchans hbucket
  refine ⟨⟨hw.intact,?_,?_,?_,?_,?_,?_,?_⟩,?_⟩
  · show ((slots ++ [(key,(⟨w.chans.length,now⟩ : Slot))]).map (·.1)).Nodup
    rw [map_append,map_singleton,nodup_append]
    refine ⟨hnames,nodup_singleton _,fun name hname name' hname' => ?_⟩
    obtain ⟨entry,hentry,heq⟩ := mem_map.mp hname
    rw [mem_singleton.mp hname',← heq]
    exact not_mem_of_lookup hbucket entry hentry
  · show ((slots ++ [(key,(⟨w.chans.length,now⟩ : Slot))]).map (·.2.chan)).Nodup
    rw [map_append,map_singleton,nodup_append]
    refine ⟨hchans,nodup_singleton _,fun ch hch ch' hch' => ?_⟩
    obtain ⟨entry,hentry,heq⟩ := mem_map.mp hch
    rw [mem_singleton.mp hch',← heq]
    exact Nat.ne_of_lt (hold entry hentry)
  · intro entry hentry
    obtain hentry | hentry := mem_append.mp (show entry ∈ slots ++ [_] from hentry)
    · obtain ⟨buf,hlive⟩ := hw.live entry (hslots ▸ hentry)
      exact ⟨buf,(getElem?_append_left (hold entry hentry)).trans hlive⟩
    · rw [mem_singleton.mp hentry]
      exact ⟨[],getElem?_concat_length⟩
  · intro ch c hc hbuf
    by_cases hlt : ch < w.chans.length
    · rw [getElem?_append_left hlt] at hc
      obtain hw' | hw' := hw.watched ch c hc hbuf
      · refine .inl ?_
        rw [hslots] at hw'
        obtain ⟨entry,hentry,hch⟩ := mem_map.mp hw'
        exact mem_map.mpr ⟨entry,mem_append_left _ hentry,hch⟩
      · exact .inr hw'
    · rw [getElem?_append_right (Nat.not_lt.mp hlt)] at hc
      have hnew := mem_singleton.mp (mem_of_getElem? hc)
      rw [hnew] at hbuf
      exact absurd rfl hbuf
  · intro h' hh' hclose
    cases hlock.symm.trans hh'
    rw [htask] at hclose
    cases hclose
  · exact nofun
  · intro hshut
    cases hkeys.symm.trans (hw.shut hshut)
  · exact mem_append_right _ mem_cons_self

theorem sound_finished (hw : Sound w) (hlock : w.lock = some { task := .close }) :
    Sound { w with lock := none, keys := none, shutdown := .finished } := by
  have hslots : w.slots = [] := by
    refine eq_nil_iff_forall_not_mem.mpr fun entry hentry => ?_
    cases hw.left _ hlock rfl entry.1 (mem_map.mpr ⟨entry,hentry,rfl⟩)
  refine ⟨hw.intact,nodup_nil,nodup_nil,nofun,
    fun ch c hc hbuf => ?_,nofun,nofun,
    fun _ => rfl⟩
  refine watched_mono (w := w) hslots.symm (fun h => h) (fun h hh hdrain => ?_)
    (hw.watched ch c hc hbuf)
  cases hlock.symm.trans hh
  cases hdrain

theorem sound_step (hw : Sound w) (h : Moves cfg w a w') : Sound w' := by
  cases h with
  | call key =>
    refine sound_of_gets hw (lesser_refl rfl) rfl rfl rfl (fun h => h) fun ch c _ _ h => ?_
    obtain ⟨st,hst,hdrains⟩ := h
    exact ⟨st,mem_append_left _ hst,hdrains⟩
  | went a i st st' hi hheld hdrains =>
    refine sound_of_gets hw (lesser_refl rfl) rfl rfl rfl (fun h => h)
      fun ch c hc hbuf => drains_set hi (.inl ?_)
    obtain hnone | ⟨ch',hch',htake⟩ := hdrains
    · rw [hnone]
      exact nofun
    · rw [hch']
      intro h
      cases h
      exact hbuf (buf_of_take htake hc)
  | dropped i now key bucket hi hbucket hlock =>
    obtain ⟨buf, -,hdrop⟩ := drop_eq hw hbucket
    rw [hdrop]
    refine sound_of_drop hw hbucket rfl rfl rfl rfl ?_ ?_ (.inr (.inl ⟨.drain bucket.chan,?_,rfl⟩))
      (fun ch => drains_set hi (.inl nofun)) (fun h ch hh => ?_)
    · exact fun h hh => by cases hlock.symm.trans hh
    · exact fun h k conn hh => by cases hlock.symm.trans hh
    · exact List.mem_set (List.getElem?_eq_some_iff.mp hi).1 _
    · cases hlock.symm.trans hh
  | received i st st' ch conn w₁ hi hst hst' hdrains htake =>
    have hlesser := take_lesser htake
    obtain ⟨rest,closed, -,rfl⟩ := take_cases htake
    refine sound_of_gets hw hlesser rfl rfl rfl (fun h => h) fun ch' c _ _ => drains_set hi ?_
    rw [hdrains]
    exact (Classical.em _).symm
  | closed i ch conn hi =>
    exact sound_of_gets hw (lesser_refl rfl) rfl rfl rfl (fun h => h)
      fun ch' c _ _ => drains_set hi (Classical.em _).symm
  | discarded i ch conn hi =>
    exact sound_of_gets hw (lesser_refl rfl) rfl rfl rfl (fun h => h)
      fun ch' c _ _ => drains_set hi (.inl nofun)
  | ran conn h | lost key hkeys =>
    exact sound_of_gets hw (lesser_refl rfl) rfl rfl rfl (fun h => h) fun ch c _ _ h => h
  | entered a task hlock htask =>
    refine sound_of_lesser hw (lesser_refl rfl) rfl rfl (fun h => h) (fun h hh _ name hname => ?_)
      (fun h key conn hh hreturn => ?_)
      fun ch c _ _ => watched_mono rfl (fun h => h) (fun h hh => by cases hlock.symm.trans hh)
    · cases hh
      exact hname
    · cases hh
      obtain htask | htask := htask <;> cases htask.symm.trans hreturn
  | returning key todo hlock hkeys =>
    refine sound_of_lesser hw (lesser_refl rfl) rfl rfl (fun h => h) (fun h hh hclose => ?_)
      (fun h k conn hh _ => hkeys)
      fun ch c _ _ => watched_mono rfl (fun h => h) (fun h hh => by cases hlock.symm.trans hh)
    cases hh
    cases hclose
  | stopped h =>
    exact sound_of_gets hw (lesser_refl rfl) rfl rfl rfl nofun fun ch c _ _ h => h
  | skipped key now task todo hlock htask =>
    exact sound_of_holder hw hlock rfl (lesser_refl rfl) rfl rfl rfl rfl rfl
      (fun hclose => absurd hclose htask) nofun
  | swept key now task todo bucket hlock hbucket =>
    obtain ⟨buf, -,hdrop⟩ := drop_eq hw hbucket
    rw [hdrop]
    refine sound_of_drop hw hbucket rfl rfl rfl rfl (fun h hh hclose name hname hne => ?_)
      (fun h k conn hh hreturn => ?_) (.inr (.inr ⟨_,rfl,rfl⟩)) (fun ch h => h)
      (fun h ch hh hdrain => ?_)
    · cases hh
      exact (mem_erase_of_ne hne).mpr (hw.left _ hlock hclose name hname)
    · cases hh
      exact hw.kept _ k conn hlock hreturn
    · cases hlock.symm.trans hh
      cases hdrain
  | drained task todo ch hlock htake =>
    refine sound_of_holder hw hlock rfl (lesser_refl rfl) rfl rfl rfl rfl rfl (fun _ => rfl)
      (fun ch' c hc hbuf hdrain => ?_)
    cases hdrain
    exact absurd (buf_of_take htake hc) hbuf
  | freed todo ch conn w₁ hlock htake =>
    have hlesser := take_lesser htake
    obtain ⟨rest,closed, -,rfl⟩ := take_cases htake
    exact sound_of_gets hw hlesser rfl rfl rfl (fun h => h) fun ch c _ _ h => h
  | taken task todo ch conn w₁ hlock htake =>
    have hlesser := take_lesser htake
    obtain ⟨rest,closed, -,rfl⟩ := take_cases htake
    exact sound_of_holder hw hlock rfl hlesser rfl rfl rfl rfl rfl (fun _ => rfl)
      (fun ch c _ _ hdrain => hdrain)
  | closedDrained task todo drain conn hlock =>
    exact sound_of_holder hw hlock rfl (lesser_refl rfl) rfl rfl rfl rfl rfl (fun _ => rfl)
      (fun ch c _ _ hdrain => hdrain)
  | cleaned now hlock => exact sound_unlock hw hlock rfl
  | finished now hlock => exact sound_finished hw hlock
  | sent now key conn bucket hlock hbucket =>
    exact sound_unlock (sound_send hw (mem_of_lookup hbucket)) (send_lock.trans hlock) rfl
  | opened now key conn hlock hbucket =>
    obtain ⟨hopened,hmem⟩ := sound_opened hw now hlock rfl hbucket
    exact sound_unlock (sound_send hopened hmem) (send_lock.trans hlock) rfl

end Sound

section View

/-- What the calls of `Pool.P` see: each bucket with what its channel holds. -/
def bucketOf (chans : List Chan) (slot : PoolSteps.Slot) : Pool.Slot Nat :=
  ⟨chans[slot.chan]?.elim [] Chan.buf,slot.lastUse⟩

def view (w : World) : P Nat where
  keys := w.keys.map fun slots => slots.map fun entry => (entry.1,bucketOf w.chans entry.2)

theorem view_slots :
    (view w).slots = w.slots.map fun entry => (entry.1,bucketOf w.chans entry.2) := by
  unfold view P.slots World.slots
  cases w.keys <;> rfl

theorem view_lookup (key : String) :
    (view w).slots.lookup key = (w.slots.lookup key).map (bucketOf w.chans) := by
  rw [view_slots]
  exact lookup_map_value (fun _ => bucketOf w.chans) key

theorem view_map (f : String × Pool.Slot Nat → String × Pool.Slot Nat) (hkeys : w'.keys = w.keys)
    (h : ∀ e ∈ w.slots, (e.1,bucketOf w'.chans e.2) = f (e.1,bucketOf w.chans e.2)) :
    view w' = { keys := (view w).keys.map (map f) } := by
  unfold view
  rw [hkeys,Option.map_map]
  refine congrArg P.mk (Option.map_congr fun slots hs => ?_)
  rw [Function.comp,map_map]
  refine map_congr_left fun e he => h e ?_
  rw [World.slots,hs]
  exact he

theorem view_same (hkeys : w'.keys = w.keys)
    (h : ∀ e ∈ w.slots, bucketOf w'.chans e.2 = bucketOf w.chans e.2) : view w' = view w :=
  (view_map id hkeys fun e he => congrArg (e.1,·) (h e he)).trans (by simp)

/-- A channel belongs to one key. -/
theorem view_set (hw : Sound w) (hmem : (key,bucket) ∈ w.slots) (buf : List Nat)
    (closed : Bool) :
    view { w with chans := w.chans.set bucket.chan ⟨buf,closed⟩ } = (view w).setConns key buf := by
  obtain ⟨_,hch⟩ := hw.live _ hmem
  refine view_map _ rfl fun e he => ?_
  by_cases hk : e.1 = key
  · cases inj_on_of_nodup_map hw.names he hmem hk
    simp [bucketOf,(List.getElem?_eq_some_iff.mp hch).1]
  · have hne : bucket.chan ≠ e.2.chan := fun h =>
      hk (congrArg Prod.fst (inj_on_of_nodup_map hw.chans hmem he h)).symm
    simp [bucketOf,hk,getElem?_set_ne hne]

theorem view_drop (hw : Sound w) (hl : w.slots.lookup key = some bucket) :
    view (w.drop key bucket) = (view w).remove fun name _ => name = key := by
  obtain ⟨buf,hch,hdrop⟩ := drop_eq hw hl
  have hsame : view { w with chans := w.chans.set bucket.chan ⟨buf,true⟩ } = view w := by
    refine view_same rfl fun e _ => ?_
    by_cases heq : bucket.chan = e.2.chan
    · simp [bucketOf,← heq,hch,getElem?_set_self (List.getElem?_eq_some_iff.mp hch).1]
    · simp [bucketOf,getElem?_set_ne heq]
  rw [hdrop,← hsame]
  unfold view P.remove
  cases w.keys with
  | none => rfl
  | some slots => simp [filter_map,Function.comp_def]

theorem view_send (hw : Sound w) (hl : w.slots.lookup key = some bucket) :
    view (w.send cfg bucket.chan conn) = (view w).send cfg key conn := by
  have hmem := mem_of_lookup hl
  obtain ⟨buf,hch⟩ := hw.live _ hmem
  simp only [P.send,view_lookup,hl,World.send,bucketOf,hch,Option.map_some,Option.elim_some]
  split
  · exact view_set hw hmem _ _
  · rfl

theorem view_opened (hw : Sound w) (hl : w.slots.lookup key = none)
    (hlock : w.lock = some { task := .returnConn key conn }) :
    view (World.send cfg
      { w with
        chans := w.chans ++ [{ buf := [] }]
        keys := w.keys.map (fun slots => slots ++ [(key,⟨w.chans.length,now⟩)]) }
      w.chans.length conn) =
    P.send cfg { keys := (view w).keys.map fun slots => slots ++ [(key,⟨[],now⟩)] } key conn := by
  obtain ⟨hopened, -⟩ := sound_opened hw now hlock rfl hl
  obtain ⟨slots,hkeys⟩ := Option.ne_none_iff_exists'.mp (hw.kept _ _ _ hlock rfl)
  have hslots : w.slots = slots := congrArg (Option.getD · []) hkeys
  rw [hkeys] at hopened ⊢
  have hnew (b : Slot) : (slots ++ [(key,b)]).lookup key = some b := by
    rw [lookup_append,← hslots,hl,Option.none_or,lookup_cons_self]
  refine (view_send hopened (hnew _)).trans (congrArg (P.send cfg · key conn) ?_)
  simp only [view,bucketOf,hkeys,Option.map_some,map_append,map_singleton,getElem?_concat_length]
  congr 3
  refine map_congr_left fun e he => ?_
  obtain ⟨buf,hlive⟩ := hw.live e (hslots ▸ he)
  rw [getElem?_append_left (List.getElem?_eq_some_iff.mp hlive).1]

variable (cfg) in
/-- What the calls of `Pool.P` do to the pool, one bucket at a time. -/
inductive Touches (p : P Nat) : P Nat → Prop where
  | nothing : Touches p p
  | takes (h : (key,⟨c :: rest,made⟩) ∈ p.slots) : Touches p (p.setConns key rest)
  | drops (key : String) : Touches p (p.remove fun name _ => name = key)
  | sends (key : String) (conn : Nat) : Touches p (p.send cfg key conn)
  | opens (key : String) (conn : Nat) (now : Int) : Touches p
      (P.send cfg { keys := p.keys.map fun slots => slots ++ [(key,⟨[],now⟩)] } key conn)
  | closes : Touches p { keys := none }

theorem take_touches (hw : Sound w) (h : w.take ch = some (conn,w₁)) :
    Touches cfg (view w) (view w₁) := by
  obtain ⟨rest,closed,hch,rfl⟩ := take_cases h
  by_cases hin : ∃ entry ∈ w.slots, entry.2.chan = ch
  · obtain ⟨⟨key,bucket⟩,hmem,rfl⟩ := hin
    have hslot : (key,⟨conn :: rest,bucket.lastUse⟩) ∈ (view w).slots := by
      rw [view_slots]
      exact mem_map.mpr ⟨_,hmem,by simp [bucketOf,hch]⟩
    exact view_set hw hmem rest closed ▸ .takes hslot
  · have hsame : view { w with chans := w.chans.set ch ⟨rest,closed⟩ } = view w :=
      view_same rfl fun e he => by
        simp [bucketOf,getElem?_set_ne fun heq => hin ⟨e,he,heq.symm⟩]
    rw [hsame]
    exact .nothing

/-- Every step of the calls is a part of a call of `Pool.P`. -/
theorem step_touches (hw : Sound w) (h : Moves cfg w a w') : Touches cfg (view w) (view w') := by
  cases h with
  | dropped i now key bucket hi hl | swept key now task todo bucket hlock hl =>
    exact view_drop hw hl ▸ .drops key
  | received i st st' ch conn w₁ hi hst hst' hdrains h | freed todo ch conn w₁ hlock h
  | taken task todo ch conn w₁ hlock h => exact (take_touches hw h :)
  | finished now hlock => exact .closes
  | sent now key conn bucket hlock hl => exact view_send hw hl ▸ .sends key conn
  | opened now key conn hlock hl => exact view_opened hw hl hlock ▸ .opens key conn now
  | _ => exact .nothing

/-- The last step of a `Return` that has no buckets to drop is `returnConn`. -/
theorem leave_returnConn (hw : Sound w) (hlock : w.lock = some { task := .returnConn key conn })
    (hroom : w.slots.lookup key = none → w.slots.length ≠ cfg.maxKeys)
    (h : w.step cfg (.leave (unix now)) = some w') :
    view w' = (view w).returnConn cfg now key conn := by
  simp only [World.step,hlock] at h
  unfold P.returnConn P.bucketFor
  rw [view_lookup]
  cases hl : w.slots.lookup key with
  | some bucket =>
    rw [hl] at h
    cases h
    exact view_send hw hl
  | none =>
    rw [hl] at h
    cases h
    rw [← hlock]
    refine (view_opened hw hl hlock).trans ?_
    have hlen : (view w).slots.length ≠ cfg.maxKeys := by
      rw [view_slots,length_map]
      exact hroom hl
    dsimp only [Option.map_none]
    rw [if_neg hlen]

end View

section Counts

def arrivals : Action → Nat
  | .enterReturn _ => 1
  | _ => 0

theorem arrivals_other (ha : ∀ key, a ≠ .enterReturn key) : arrivals a = 0 := by
  cases a with
  | enterReturn key => exact absurd rfl (ha key)
  | _ => rfl

theorem count_cons_add (conn t : Nat) (rest : List Nat) :
    (conn :: rest).count t = rest.count t + [conn].count t := by
  rw [← singleton_append,count_append,Nat.add_comm]

theorem holds_conn (task : Task) (todo : List String) (drain : Option Nat) (conn t : Nat) :
    (holds { task, todo, drain, conn := some conn }).count t =
      (holds { task, todo, drain }).count t + [conn].count t := by
  simp [holds]

theorem take_count (h : w.take ch = some (conn,w₁)) (t : Nat) :
    (w₁.chans.flatMap Chan.buf).count t + [conn].count t = (w.chans.flatMap Chan.buf).count t := by
  obtain ⟨rest,closed,hch,rfl⟩ := take_cases h
  have hset := count_flatMap_set Chan.buf ⟨rest,closed⟩ t hch
  have hcons := count_cons_add conn t rest
  dsimp only at hset ⊢
  omega

theorem send_count (cfg : Config) (hw : Sound w) (hmem : (name,bucket) ∈ w.slots)
    (hlock : w.lock = some { task := .returnConn key conn }) (t : Nat) :
    occurrences t { w.send cfg bucket.chan conn with lock := none } = occurrences t w := by
  obtain ⟨buf,hlive⟩ := hw.live _ hmem
  have hholds : holds { task := .returnConn key conn } = [conn] := rfl
  unfold occurrences World.send
  rw [hlive,hlock]
  dsimp only
  split
  · have hset := count_flatMap_set Chan.buf ⟨buf ++ [conn],false⟩ t hlive
    simp only [count_append,Option.elim_some,Option.elim_none,hholds,count_nil] at hset ⊢
    omega
  · simp only [count_append,Option.elim_some,Option.elim_none,hholds,count_nil]
    omega

theorem drop_count (hw : Sound w) (hbucket : w.slots.lookup key = some bucket) (t : Nat) :
    ((w.drop key bucket).chans.flatMap Chan.buf).count t = (w.chans.flatMap Chan.buf).count t := by
  obtain ⟨buf,hlive,hdrop⟩ := drop_eq hw hbucket
  have hset := count_flatMap_set Chan.buf ⟨buf,true⟩ t hlive
  rw [hdrop]
  dsimp only at hset ⊢
  omega

theorem count_step (hw : Sound w) (h : Moves cfg w a w') :
    occurrences t w' =
      occurrences t w + if w.keys.isSome ∧ t = w.returned then arrivals a else 0 := by
  unfold occurrences
  cases h with
  | call key =>
    have hgets := count_flatMap_concat (l := w.gets) held (.start key) t
    simp only [held,count_nil,arrivals,ite_self] at hgets ⊢
    omega
  | went a i st st' hi hheld hdrains ha =>
    have hgets := count_flatMap_set held st' t hi
    rw [hheld] at hgets
    rw [arrivals_other ha,ite_self]
    dsimp only
    omega
  | dropped i now key bucket hi hbucket hlock =>
    have hgets := count_flatMap_set held (.drain bucket.chan) t hi
    have hchans := drop_count hw hbucket t
    obtain ⟨buf, -,hdrop⟩ := drop_eq hw hbucket
    rw [hdrop] at hchans ⊢
    simp only [held,count_nil,arrivals,ite_self] at hgets hchans ⊢
    omega
  | received i st st' ch conn w₁ hi hst hst' hdrains htake =>
    have hgets := count_flatMap_set held st' t hi
    have hchans := take_count htake t
    obtain ⟨rest,closed, -,rfl⟩ := take_cases htake
    rw [hst,hst'] at hgets
    simp only [count_nil,arrivals,ite_self] at hgets hchans ⊢
    omega
  | closed i ch conn hi =>
    have hgets := count_flatMap_set held (.drain ch) t hi
    simp only [held,count_nil,count_append,arrivals,ite_self] at hgets ⊢
    omega
  | discarded i ch conn hi =>
    have hgets := count_flatMap_set held (.receive ch) t hi
    simp only [held,count_nil,count_append,arrivals,ite_self] at hgets ⊢
    omega
  | ran conn hmem =>
    have hclosing := (perm_cons_erase hmem).count_eq t
    have hcons := count_cons_add conn t (w.closing.erase conn)
    simp only [count_append,arrivals,ite_self]
    omega
  | entered a task hlock htask ha =>
    have hholds : holds { task, todo := w.names } = [] := by
      obtain htask | htask := htask <;> subst htask <;> rfl
    rw [arrivals_other ha,ite_self,hlock]
    simp only [Option.elim_some,hholds,Option.elim_none,Nat.add_zero]
  | lost key hkeys =>
    simp only [hkeys,Option.isSome_none,Bool.false_eq_true,false_and,if_false,Nat.add_zero]
  | returning key todo hlock hkeys =>
    have hholds : holds { task := .returnConn key w.returned, todo } = [w.returned] := rfl
    have hsome : w.keys.isSome = true := Option.isSome_iff_ne_none.mpr hkeys
    have hnew : [w.returned].count t = if t = w.returned then 1 else 0 := by
      simp only [count_singleton,beq_iff_eq,eq_comm (a := t)]
    rw [hlock]
    simp only [Option.elim_some,hholds,hnew,Option.elim_none,count_nil,arrivals,hsome,
      true_and]
    omega
  | stopped h => simp only [arrivals,ite_self,Nat.add_zero]
  | skipped key now task todo hlock htask | drained task todo ch hlock htake | cleaned now hlock
  | finished now hlock =>
    rw [hlock]
    simp only [arrivals,ite_self]
    rfl
  | swept key now task todo bucket hlock hbucket =>
    have hchans := drop_count hw hbucket t
    obtain ⟨buf, -,hdrop⟩ := drop_eq hw hbucket
    rw [hdrop] at hchans ⊢
    rw [hlock]
    have hholds : holds { task, todo := todo.erase key, drain := some bucket.chan } =
        holds { task, todo } := rfl
    simp only [Option.elim_some,hholds,arrivals,ite_self] at hchans ⊢
    omega
  | freed todo ch conn w₁ hlock htake =>
    have hchans := take_count htake t
    obtain ⟨rest,closed, -,rfl⟩ := take_cases htake
    simp only [count_append,arrivals,ite_self] at hchans ⊢
    omega
  | taken task todo ch conn w₁ hlock htake =>
    have hchans := take_count htake t
    obtain ⟨rest,closed, -,rfl⟩ := take_cases htake
    have hholds := holds_conn task todo (some ch) conn t
    rw [hlock]
    simp only [Option.elim_some,arrivals,ite_self] at hchans ⊢
    omega
  | closedDrained task todo drain conn hlock =>
    have hholds := holds_conn task todo drain conn t
    rw [hlock]
    simp only [Option.elim_some,count_append,arrivals,ite_self] at hholds ⊢
    omega
  | sent now key conn bucket hlock hbucket =>
    simp only [arrivals,ite_self]
    exact send_count cfg hw (mem_of_lookup hbucket) hlock t
  | opened now key conn hlock hbucket =>
    obtain ⟨hopened,hmem⟩ := sound_opened hw now hlock rfl hbucket
    have hchans := count_flatMap_concat (l := w.chans) Chan.buf ⟨[],false⟩ t
    have hsent := send_count cfg hopened hmem hlock t
    unfold occurrences at hsent
    simp only [count_nil,arrivals,ite_self] at hchans hsent ⊢
    omega

theorem returned_step (h : Moves cfg w a w') : w'.returned = w.returned + arrivals a := by
  have hdrop : ∀ key bucket, (w.drop key bucket).returned = w.returned := by
    intro key bucket
    unfold World.drop
    split <;> rfl
  have hsend : ∀ (w : World) ch conn, (w.send cfg ch conn).returned = w.returned := by
    intro w ch conn
    unfold World.send
    split
    · split <;> rfl
    · rfl
  cases h with
  | went a i st st' hi hheld hdrains ha | entered a task hlock htask ha =>
    exact (arrivals_other ha).symm ▸ rfl
  | dropped i now key bucket | swept key now task todo bucket => exact hdrop key bucket
  | received i st st' ch conn w₁ hi hst hst' hdrains htake | freed todo ch conn w₁ hlock htake
  | taken task todo ch conn w₁ hlock htake =>
    obtain ⟨rest,closed, -,rfl⟩ := take_cases htake
    rfl
  | sent now key conn bucket => exact hsend w bucket.chan conn
  | opened now key conn => exact hsend _ w.chans.length conn
  | _ => rfl

end Counts

section Runs

def returnsOpen (w : World) : Action → Bool
  | .enterReturn _ => w.keys.isSome
  | _ => true

/-- No call has the lock, each call of `Get` has not begun or has returned, and no
connection is about to be closed. -/
structure Quiet (w : World) : Prop where
  lock : w.lock = none
  gets : ∀ st ∈ w.gets, (∃ key, st = .start key) ∨ st = .new ∨ ∃ conn, st = .got conn
  closing : w.closing = []

/-- Each connection that was passed to `Return` is in one place, no closed channel was
closed or sent to, and once `Close` is done the connections that were not handed out are
closed. -/
structure Owned (w : World) : Prop where
  intact : w.panicked = false
  one : ∀ t < w.returned, occurrences t w = 1
  ended : w.shutdown = .finished → ∀ t < w.returned, .got t ∈ w.gets ∨ t ∈ w.closed

theorem sound_start : Sound {} := by
  refine ⟨rfl,nodup_nil,nodup_nil,nofun,nofun,
    nofun,nofun,nofun⟩

/-- Any interleaving changes the pool as calls of `Pool.P` do. -/
theorem run_touches (h : run (World.step cfg) {} acts = some w) :
    Relation.ReflTransGen (Touches cfg) (view {}) (view w) := by
  refine (run_keeps
    (P := fun w => Sound w ∧ Relation.ReflTransGen (Touches cfg) (view {}) (view w))
    (fun _ _ _ _ _ hstep hw => ?_) ⟨sound_start,.refl⟩ h).2
  have hmoves := moves_of_step hstep
  exact ⟨sound_step hw.1 hmoves,hw.2.tail (step_touches hw.1 hmoves)⟩

theorem ended_of_sound (hw : Sound w) (hshut : w.shutdown = .finished) (hquiet : Quiet w)
    (ht : occurrences t w = 1) : .got t ∈ w.gets ∨ t ∈ w.closed := by
  obtain ⟨hlock,hgets,hclosing⟩ := hquiet
  have hslots : w.slots = [] := by
    unfold World.slots
    rw [hw.shut hshut]
    rfl
  have hempty : ∀ c ∈ w.chans, c.buf = [] := by
    intro c hc
    obtain ⟨ch,hch⟩ := mem_iff_getElem?.mp hc
    by_contra hbuf
    obtain hin | ⟨st,hst,hdrains⟩ | ⟨h,hh, -⟩ := hw.watched ch c hch hbuf
    · rw [hslots] at hin
      cases hin
    · obtain ⟨key,rfl⟩ | rfl | ⟨conn,rfl⟩ := hgets st hst
      all_goals cases hdrains
    · cases hlock.symm.trans hh
  have hchans : (w.chans.flatMap Chan.buf).count t = 0 := by
    rw [flatMap_eq_nil_iff.mpr hempty]
    rfl
  unfold occurrences at ht
  rw [hchans,hlock,hclosing] at ht
  by_cases hclosed : t ∈ w.closed
  · exact .inr hclosed
  · rw [count_eq_zero.mpr hclosed] at ht
    simp only [Option.elim_none,count_nil] at ht
    have hmem : t ∈ w.gets.flatMap held := count_pos_iff.mp (by omega)
    obtain ⟨st,hst,hheld⟩ := mem_flatMap.mp hmem
    obtain ⟨key,rfl⟩ | rfl | ⟨conn,rfl⟩ := hgets st hst
    · cases hheld
    · cases hheld
    · cases mem_singleton.mp hheld
      exact .inl hst

theorem open_of_arrival (ha : returnsOpen w a = true) :
    arrivals a = 0 ∨ (arrivals a = 1 ∧ w.keys.isSome) := by
  cases a with
  | enterReturn key => exact .inr ⟨rfl,ha⟩
  | _ => exact .inl rfl

theorem books_step (hw : Sound w) (h : w.step cfg a = some w') :
    Sound w' ∧ w'.returned = w.returned + arrivals a ∧
      ∀ t, occurrences t w' =
        occurrences t w + if w.keys.isSome ∧ t = w.returned then arrivals a else 0 := by
  have hmoves := moves_of_step h
  exact ⟨sound_step hw hmoves,returned_step hmoves,fun t => count_step hw hmoves⟩

theorem occurrences_start : occurrences t {} = 0 := rfl

/-- With any interleaving of the calls, each connection has one owner if no `Return` comes
after the end of `Close` and the pool is quiet then. The first is always needed. -/
theorem pool_owned_iff (cfg : Config) (acts : List Action)
    (hrun : run (World.step cfg) {} acts = some w) :
    (Meets (World.step cfg) (fun w a => returnsOpen w a = true) {} acts ∧
      (w.shutdown = .finished → Quiet w) → Owned w) ∧
    (Owned w → Meets (World.step cfg) (fun w a => returnsOpen w a = true) {} acts) := by
  refine and_comm.mp ⟨?_,?_⟩
  · intro howned
    by_contra hno
    have hmarked := run_marked_of_inv
      (I := fun w => Sound w ∧ ∀ t, w.returned ≤ t → occurrences t w = 0)
      (Q := fun w => ∃ t < w.returned, occurrences t w = 0)
      (fun w a w' hw (_ : True) hstep => by
        obtain ⟨hsound,hreturned,hcount⟩ := books_step hw.1 hstep
        refine ⟨hsound,fun t ht => ?_⟩
        rw [hcount t,hw.2 t (by omega)]
        split <;> omega)
      (fun w a w' hw _ hbroken hstep => by
        obtain ⟨hsound,hreturned,hcount⟩ := books_step hw.1 hstep
        cases a with
        | enterReturn key =>
          refine ⟨w.returned,hreturned ▸ Nat.lt_succ_self _,?_⟩
          rw [hcount w.returned,hw.2 _ (Nat.le_refl _),if_neg fun h => hbroken h.1]
        | _ => exact absurd rfl hbroken)
      (fun w a w' hw _ hq hstep => by
        obtain ⟨hsound,hreturned,hcount⟩ := books_step hw.1 hstep
        obtain ⟨t,ht,hzero⟩ := hq
        refine ⟨t,by omega,?_⟩
        rw [hcount t,hzero,if_neg fun h => Nat.ne_of_lt ht h.2])
      ⟨sound_start,fun t _ => occurrences_start⟩ (meets_of_free fun _ _ _ => trivial) hno hrun
    obtain ⟨t,ht,hzero⟩ := hmarked
    have hone := howned.one t ht
    omega
  · rintro ⟨hmeets,hquiet⟩
    have hkept := run_invariant_of_meets
      (P := fun w => Sound w ∧ ∀ t, occurrences t w = if t < w.returned then 1 else 0)
      (fun w a w' hw ha hstep => by
        obtain ⟨hsound,hreturned,hcount⟩ := books_step hw.1 hstep
        refine ⟨hsound,fun t => ?_⟩
        rw [hcount t,hw.2 t,hreturned]
        obtain hnone | ⟨hone,hopen⟩ := open_of_arrival ha
        · rw [hnone,ite_self]
          rfl
        · rw [hone]
          simp only [hopen,true_and]
          split <;> split <;> split <;> omega)
      ⟨sound_start,fun t => occurrences_start⟩ hmeets hrun
    obtain ⟨hsound,hcounts⟩ := hkept
    have hone : ∀ t < w.returned, occurrences t w = 1 := fun t ht => (hcounts t).trans (if_pos ht)
    exact ⟨hsound.intact,hone,
      fun hshut t ht => ended_of_sound hsound hshut (hquiet hshut) (hone t ht)⟩

end Runs

def smallPool : Config where
  maxKeys := 5000
  maxConnsPerKey := 5
  maxConnLifetimeSec := 150
  staleKeyLifetimeSec := 300

def reused : List Action :=
  [.enterReturn "example.org",.leave 0,.get "example.org",.enterGet 0 10,.receive 0,
    .examine 0 true,.enterReturn "example.org",.leave 20,.stop,.enterClose,
    .visit "example.org" 30,.drain,.closeDrained,.drain,.leave 30]

theorem reused_owned : ∃ w, run (World.step smallPool) {} reused = some w ∧
    w.shutdown = .finished ∧ Owned w := by
  refine ⟨_,rfl,rfl,(pool_owned_iff smallPool reused rfl).1 ⟨meets_of_checks rfl,fun _ => ?_⟩⟩
  exact ⟨rfl,forall_mem_singleton.mpr (.inr (.inr ⟨0,rfl⟩)),rfl⟩

/-- A connection that is returned to a pool that was closed is left open. And a `Get` that
has dropped a bucket may have its connections still to close when `Close` returns. -/
theorem return_after_close_leaks :
    (¬ ∀ (cfg : Config) (acts : List Action) (w : World),
      run (World.step cfg) {} acts = some w → Quiet w → Owned w) ∧
    ¬ ∀ (cfg : Config) (acts : List Action) (w : World),
      Meets (World.step cfg) (fun w a => returnsOpen w a = true) {} acts →
      run (World.step cfg) {} acts = some w → Owned w := by
  constructor
  · intro h
    have howned := h smallPool [.stop,.enterClose,.leave 0,.enterReturn "example.org"] _ rfl
      ⟨rfl,nofun,rfl⟩
    obtain hgot | hclosed := howned.ended rfl 0 Nat.one_pos
    · cases hgot
    · cases hclosed
  · intro h
    have howned := h smallPool [.enterReturn "example.org",.leave 0,.get "example.org",
      .enterGet 0 200,.stop,.enterClose,.leave 200] _ (meets_of_checks rfl) rfl
    obtain hgot | hclosed := howned.ended rfl 0 Nat.one_pos
    · cases mem_singleton.mp hgot
    · cases hclosed

end Madmail.Proofs.PoolOwners
