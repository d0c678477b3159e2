import Madmail.Remote.HttpBody

namespace Madmail.Proofs.HttpTruncation
open Lib Exterrors Framework Remote Transfer List

variable {env : TransferEnv}
variable {t t' : Transfer} {a : TransferStep} {header : Module.Header} {as : List TransferStep}
  {raw : String × String → Option (List Char)}

def written (raw : String × String → Option (List Char)) (rest : List Char) :
    Module.Header → List Char
  | [] => '\r' :: '\n' :: rest
  | field :: fields =>
    match raw field with
    | none => []
    | some formatted => formatted ++ written raw rest fields

def pending (env : TransferEnv) : Producer → List Char
  | .header fields => written env.raw env.body.reader.bytes fields
  | .copy chunks => chunks.flatten
  | .closing | .closed => []

variable (env : TransferEnv) (t : Transfer) in
inductive Moves : Transfer → Prop where
  | write (producer : Producer) (offered : List Char) (ho : t.offered = [])
      (hp : offered ++ pending env producer = pending env t.producer) :
      Moves { t with producer, offered }
  | abandon (producer : Producer) (offered : List Char) (hr : t.result ≠ none) :
      Moves { t with producer, offered }
  | read (n : Nat) (hr : t.result = none) (ho : t.offered ≠ []) (hn : 0 < n) :
      Moves { t with received := t.received ++ t.offered.take n, offered := t.offered.drop n }
  | finish (hr : t.result = none) (ho : t.offered = []) (hp : t.producer = .closed) :
      Moves { t with ended := true }
  | answer (code : Nat) (hr : t.result = none) (hend : t.ended = true ∨ env.early = true) :
      Moves { t with result := some (.ok code) }
  | fail (err : Err) (hr : t.result = none) : Moves { t with result := some (.error err) }

def stepsLeft (env : TransferEnv) : Producer → Nat
  | .header fields => fields.length + env.body.reader.chunks.length + 3
  | .copy chunks => chunks.length + 2
  | .closing => 1
  | .closed => 0

theorem produce_writes (h : t.produce env = some t') :
    ∃ producer offered, t' = { t with producer, offered } ∧
      stepsLeft env producer < stepsLeft env t.producer ∧
      (t.offered = [] → offered ++ pending env producer = pending env t.producer) := by
  unfold produce at h
  split at h
  · rename_i hp
    cases h
    refine ⟨_,_,rfl,?_,fun _ => ?_⟩
    · simp [stepsLeft,hp]
    · simp [pending,written,hp,Reader.bytes]
  · rename_i field fields hp
    split at h
    · rename_i hraw
      cases h
      refine ⟨_,t.offered,rfl,?_,fun ho => ?_⟩
      · simp [stepsLeft,hp]
      · simp [pending,written,hp,hraw,ho]
    · rename_i formatted hraw
      cases h
      refine ⟨_,_,rfl,?_,fun _ => ?_⟩
      · simp [stepsLeft,hp]
      · simp [pending,written,hp,hraw]
  · rename_i hp
    cases h
    refine ⟨_,t.offered,rfl,?_,fun ho => ?_⟩
    · simp [stepsLeft,hp]
    · simp [pending,hp,ho]
  · rename_i chunk chunks hp
    cases h
    refine ⟨_,_,rfl,?_,fun _ => ?_⟩
    · simp [stepsLeft,hp]
    · simp [pending,hp]
  · rename_i hp
    cases h
    refine ⟨_,t.offered,rfl,?_,fun ho => ?_⟩
    · simp [stepsLeft,hp]
    · simp [pending,hp,ho]
  · cases h

theorem moves_of_step (h : t.step env a = some t') : Moves env t t' := by
  cases a with
  | produce =>
    simp only [step] at h
    split at h
    · rename_i hr
      have hdone : t.result ≠ none := Option.isSome_iff_ne_none.mp hr
      split at h
      · obtain ⟨producer,offered,rfl, -⟩ := produce_writes h
        exact .abandon producer offered hdone
      · cases h
        exact .abandon _ _ hdone
    · split at h
      · rename_i ho
        obtain ⟨producer,offered,rfl, -,hflow⟩ := produce_writes h
        exact .write producer offered ho (hflow ho)
      · cases h
  | read n =>
    obtain ⟨⟨hr,ho,hn⟩,h⟩ := Option.ite_none_right_eq_some.mp h
    cases h
    exact .read n (Option.isNone_iff_eq_none.mp hr) ho hn
  | finish =>
    obtain ⟨⟨hr,ho,hp, -⟩,h⟩ := Option.ite_none_right_eq_some.mp h
    cases h
    exact .finish (Option.isNone_iff_eq_none.mp hr) ho hp
  | answer code =>
    obtain ⟨⟨hr,hend⟩,h⟩ := Option.ite_none_right_eq_some.mp h
    cases h
    exact .answer code (Option.isNone_iff_eq_none.mp hr) hend
  | fail err =>
    obtain ⟨hr,h⟩ := Option.ite_none_right_eq_some.mp h
    cases h
    exact .fail err (Option.isNone_iff_eq_none.mp hr)

/-- Nothing is lost on the way through the pipe, and an answer that did not come early came after
the end of the request. -/
structure Inv (env : TransferEnv) (header : Module.Header) (t : Transfer) : Prop where
  flow : t.result = none →
    t.received ++ (t.offered ++ pending env t.producer) = pending env (.header header)
  whole : t.ended = true → t.received = pending env (.header header)
  answered : ∀ code, t.result = some (.ok code) → t.ended = true ∨ env.early = true

theorem inv_start (env : TransferEnv) (header : Module.Header) : Inv env header (start header) :=
  ⟨fun _ => rfl,nofun,nofun⟩

theorem inv_step (h : Inv env header t) (hs : t.step env a = some t') : Inv env header t' := by
  cases moves_of_step hs with
  | write producer offered ho hp =>
    refine ⟨fun hr => ?_,h.whole,h.answered⟩
    have hflow := h.flow hr
    rw [ho,nil_append] at hflow
    simp only [hp,hflow]
  | abandon producer offered hr => exact ⟨fun hnone => absurd hnone hr,h.whole,h.answered⟩
  | read n hr ho hn =>
    have hflow := h.flow hr
    refine ⟨fun _ => ?_,fun hend => ?_,h.answered⟩
    · rw [← hflow,append_assoc,← append_assoc (t.offered.take n),
        take_append_drop]
    · -- there is nothing left to read after the end of the request
      rw [← h.whole hend] at hflow
      have hnil := append_right_eq_self.mp hflow
      exact absurd (append_eq_nil_iff.mp hnil).1 ho
  | finish hr ho hp =>
    refine ⟨h.flow,fun _ => ?_,fun _ _ => .inl rfl⟩
    have hflow := h.flow hr
    simpa [ho,hp,pending] using hflow
  | answer code hr hend =>
    refine ⟨fun hnone => by simp at hnone,h.whole,fun _ _ => hend⟩
  | fail err hr => exact ⟨fun hnone => by simp at hnone,h.whole,fun _ he => by simp at he⟩

theorem inv_run (h : run (step env) (start header) as = some t) : Inv env header t :=
  run_keeps (fun _ _ _ _ _ hs hp => inv_step hp hs) (inv_start env header) h

theorem produce_goes (hp : t.producer ≠ .closed) : ∃ t', t.produce env = some t' := by
  unfold produce
  split
  · exact ⟨_,rfl⟩
  · split
    · exact ⟨_,rfl⟩
    · exact ⟨_,rfl⟩
  · exact ⟨_,rfl⟩
  · exact ⟨_,rfl⟩
  · exact ⟨_,rfl⟩
  · rename_i hclosed
    exact absurd hclosed hp

def remaining (env : TransferEnv) (t : Transfer) : Nat :=
  stepsLeft env t.producer + (t.offered ++ pending env t.producer).length + if t.ended then 0 else 1

theorem reaches_end :
    ∃ as t, run (step env) (start header) as = some t ∧ t.result = none ∧ t.ended = true := by
  refine run_reaches (m := remaining env) (fun t hr hend => ?_) rfl
  rw [Bool.not_eq_true] at hend
  by_cases ho : t.offered = []
  · by_cases hp : t.producer = .closed
    · refine ⟨.finish,{ t with ended := true },by simp [step,hr,ho,hp,hend],hr,?_⟩
      simp [remaining,hend]
    · obtain ⟨t',ht'⟩ : ∃ t', t.produce env = some t' := produce_goes hp
      obtain ⟨producer,offered,rfl,hless,hflow⟩ := produce_writes ht'
      refine ⟨.produce,{ t with producer, offered },?_,hr,?_⟩
      · simpa [step,hr,ho] using ht'
      · simp only [remaining,hflow ho,ho,nil_append]
        omega
  · have hlen : 0 < t.offered.length := length_pos_iff.mpr ho
    refine ⟨.read t.offered.length,{ t with received := t.received ++ t.offered, offered := [] },
      by simp [step,hr,ho,hlen],hr,?_⟩
    simp only [remaining,nil_append,length_append]
    omega

theorem written_of_render (hh : renderHeader raw header = some h) : written raw rest header = h ++ rest := by
  obtain ⟨fields,hfields,rfl⟩ := Option.map_eq_some_iff.mp hh
  clear hh
  induction header generalizing fields with
  | nil =>
    cases hfields
    rfl
  | cons field header ih =>
    rw [mapM_cons] at hfields
    obtain ⟨formatted,hraw,hrest⟩ := Option.bind_eq_some_iff.mp hfields
    obtain ⟨others,hothers,hpure⟩ := Option.bind_eq_some_iff.mp hrest
    cases hpure
    simp [written,hraw,ih others hothers]

theorem render_ne_nil (hh : renderHeader raw header = some h) : h ≠ [] := by
  obtain ⟨fields, -,rfl⟩ := Option.map_eq_some_iff.mp hh
  simp

theorem returned_nil_iff : t.returned = some none ↔ t.result = some (.ok 200) := by
  simp [returned]

def Complete (env : TransferEnv) (header : Module.Header) (t : Transfer) : Prop :=
  ∃ h, renderHeader env.raw header = some h ∧ t.received = h ++ env.body.content

/-- A delivery that succeeds has sent the whole message exactly if the server answers no request that
it has not read, the header can be written and the reader of the body gives all of it. -/
theorem delivered_complete_iff (env : TransferEnv) (header : Module.Header) :
    (∀ as t, run (step env) (start header) as = some t → t.returned = some none →
      Complete env header t) ↔
      env.early = false ∧ (renderHeader env.raw header).isSome ∧
        env.body.reader.bytes = env.body.content := by
  constructor
  · intro h
    have hwaits : env.early = false := by
      by_contra hearly
      rw [Bool.not_eq_false] at hearly
      have hanswer : run (step env) (start header) [.answer 200] =
          some { start header with result := some (.ok 200) } := by
        simp [run,step,start,hearly]
      obtain ⟨rendered,hrendered,hnil⟩ := h _ _ hanswer rfl
      exact render_ne_nil hrendered (append_eq_nil_iff.mp hnil.symm).1
    obtain ⟨as,t,hrun,hr,hend⟩ := reaches_end
    have hanswer : t.step env (.answer 200) = some { t with result := some (.ok 200) } := by
      simp [step,hr,hend]
    have hrun' : run (step env) (start header) (as ++ [.answer 200]) =
        some { t with result := some (.ok 200) } :=
      (run_append hrun).trans (run_cons_some hanswer)
    obtain ⟨rendered,hrendered,hreceived⟩ := h _ _ hrun' rfl
    refine ⟨hwaits,by rw [hrendered]; rfl,?_⟩
    have hall := (inv_run hrun).whole hend
    rw [pending,written_of_render hrendered] at hall
    exact append_cancel_left (hall.symm.trans hreceived)
  · rintro ⟨hwaits,hheader,hbody⟩ as t hrun hnil
    obtain ⟨rendered,hrendered⟩ := Option.isSome_iff_exists.mp hheader
    refine ⟨rendered,hrendered,?_⟩
    have hinv := inv_run hrun
    have hend : t.ended = true := by
      obtain hend | hearly := hinv.answered 200 (returned_nil_iff.mp hnil)
      · exact hend
      · simp [hwaits] at hearly
    rw [hinv.whole hend,pending,written_of_render hrendered,hbody]

/-- A transfer that is complete has sent the body of the request that the deliveries model as one
call, and it returns what that call does. -/
theorem request_of_transfer {henv : HttpEnv} (ht : Complete env header t)
    (hwrite : ∀ rendered, renderHeader env.raw header = some rendered →
      henv.writeHeader header = String.ofList rendered)
    (hopen : henv.openBody url = none) {msg : Message}
    (hmsg : msg = ⟨header,String.ofList env.body.content⟩)
    (hresult : t.result = some (henv.send url (httpRequest henv mailFrom rcpts msg)).code) :
    (httpRequest henv mailFrom rcpts msg).body = .ok (String.ofList t.received) ∧
      t.returned = some (doHTTPRequestURL henv mailFrom rcpts msg url).2 := by
  obtain ⟨rendered,hrendered,hreceived⟩ := ht
  constructor
  · simp [httpRequest,hmsg,hwrite rendered hrendered,hreceived]
  · simp [returned,hresult,doHTTPRequestURL,hopen]

def torn : OpenBody where
  content := "hello".toList
  reader := ⟨["he".toList],.other (.leaf "input/output error" none)⟩
  part := ⟨"llo".toList,rfl⟩
  whole h := by cases h

/-- The server gets two octets of the body and then the end of the request. It answers 200, and that is
a delivery. -/
theorem torn_body_delivered :
    ∃ t, run (step ⟨fun _ => none,torn,false⟩) (start [])
        [.produce,.read 2,.produce,.read 2,.produce,.produce,.finish,.answer 200] = some t ∧
      t.returned = some none ∧ t.received = "\r\nhe".toList ∧ t.received ≠ "\r\nhello".toList :=
  ⟨_,rfl,rfl,rfl,by decide⟩

end Madmail.Proofs.HttpTruncation
