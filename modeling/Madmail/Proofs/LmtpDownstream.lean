import Madmail.Proofs.ClientSteps
import Madmail.Target.SmtpDownstream
import Mathlib.Data.List.Forall2

namespace Madmail.Proofs.LmtpDownstream
open Exterrors Framework Madmail.Module Smtpconn SmtpDownstream Delivery ClientSteps List

/-- Each string that was passed to `AddRcpt` and accepted gets one status, no
other one gets any, and nil is only reported if the server has taken the message
for it. -/
structure ReportsOnce (d : Delivery) (answers : List Answer) (rep : Reported) : Prop where
  returns : rep.panicked = false
  once : ∀ rcpt, (rep.statuses.map Prod.fst).count rcpt = if rcpt ∈ d.rcpts then 1 else 0
  accepted : ∀ rcpt, (rcpt,none) ∈ rep.statuses →
    ∃ i : Nat, d.rcpts[i]? = some rcpt ∧ answers[i]? = some (Answer.status none)

variable {env : Env} {c : C} {d : Delivery} {x : Exchange}

section Recipients

/-- The recipients of a delivery, and next to them what was sent for them. -/
structure Sent (env : Env) (c : C) (d : Delivery) : Prop where
  spelled : Forall₂ (fun rcpt s => c.spelling env rcpt = .ok s) d.rcpts d.conn.rcpts
  extension : ∀ name, d.conn.extension name = c.extension name

theorem addRcpt_sent (h : Sent env c d) : Sent env c (d.addRcpt env rcptTo).1 := by
  unfold addRcpt
  rcases @rcpt_cases env d.conn rcptTo with ⟨c',e,heq,hsame⟩ | ⟨c',s,heq,hs,hrcpts,hext⟩ <;>
    rw [heq]
  · refine ⟨?_,fun name => (hsame.extension name).trans (h.extension name)⟩
    simpa [hsame.rcpts] using h.spelled
  · have hspell : c.spelling env rcptTo = .ok s := by
      rw [← hs]
      unfold C.spelling
      rw [h.extension]
    refine ⟨?_,fun name => (hext name).trans (h.extension name)⟩
    simp only [hrcpts]
    exact rel_append h.spelled (.cons hspell .nil)

theorem addRcpts_sent (h : Sent env c d) : Sent env c (d.addRcpts env offered) := by
  induction offered generalizing d with
  | nil => exact h
  | cons rcptTo offered ih => exact ih (addRcpt_sent h)

end Recipients

section Replies
variable {sent : List String} {calls : List (String × Option GoSmtpError)} {err : Option Err}

/-- The callback is called for the first recipients, with the replies of the
server; if there is no error, for all of them. -/
structure Told (sent : List String) (answers : List Answer)
    (result : List (String × Option GoSmtpError) × Option Err) : Prop where
  names : result.1.map Prod.fst = sent.take result.1.length
  replies : ∀ (i : Nat) call, result.1[i]? = some call → answers[i]? = some (Answer.status call.2)
  all : result.2 = none → result.1.length = sent.length

theorem told_nothing : Told sent answers ([],some e) :=
  ⟨rfl,fun i call h => by simp at h,nofun⟩

theorem readStatuses_told (finish : Option Err) (sent : List String) (answers : List Answer) :
    Told sent answers (C.readStatuses finish sent answers) := by
  fun_induction C.readStatuses finish sent answers with
  | case1 => exact ⟨rfl,fun i call h => by simp at h,fun _ => rfl⟩
  | case2 rcpt rest err answers calls e heq ih =>
    rw [heq] at ih
    refine ⟨?_,fun i call hi => ?_,fun hnone => ?_⟩
    · simpa using ih.names
    · cases i with
      | zero =>
        cases hi
        rfl
      | succ i => exact ih.replies i call hi
    · simpa using ih.all hnone
  | case3 | case4 => exact told_nothing

def isStatus : Answer → Bool
  | .status _ => true
  | .broken _ => false

/-- How many replies for recipients there are: none if DATA is refused, a write fails
or the body cannot be read, and else those that come before the connection is lost. -/
def replyCount (c : C) (r : Reader Char) (x : Exchange) : Nat :=
  if (c.ask .data).2 = none ∧ x.sendErr = none ∧ r.readAll.2 = none then
    (x.answers.takeWhile isStatus).length
  else 0

theorem readStatuses_length (finish : Option Err) (sent : List String) (answers : List Answer) :
    (C.readStatuses finish sent answers).1.length =
      min (answers.takeWhile isStatus).length sent.length := by
  fun_induction C.readStatuses finish sent answers with
  | case1 => simp
  | case2 rcpt rest err answers calls e heq ih =>
    rw [heq] at ih
    rw [takeWhile_cons_of_pos rfl]
    simp [ih,Nat.add_min_add_right]
  | case3 => simp [isStatus]
  | case4 => rfl

theorem lmtpData_length (header : Header) (r : Reader Char) (x : Exchange) :
    (c.lmtpData env header r x).2.1.length = min (replyCount c r x) c.rcpts.length := by
  have hdata := ask_same c .data nofun
  unfold C.lmtpData C.wrapped replyCount
  rcases hx : c.ask .data with ⟨c₁,_ | e⟩
  · rw [hx] at hdata
    cases hsend : x.sendErr with
    | some e => simp
    | none =>
      rcases hr : r.readAll with ⟨content,_ | e⟩
      · have hsame := ask_same c₁ (.message header (String.ofList content)) nofun
        simp [readStatuses_length,hsame.rcpts,show c₁.rcpts = c.rcpts from hdata.rcpts]
      · simp
  · simp

theorem lmtpData_told (header : Header) (r : Reader Char) (x : Exchange) :
    Told c.rcpts x.answers (c.lmtpData env header r x).2 := by
  have hdata := ask_same c .data nofun
  unfold C.lmtpData C.wrapped
  rcases hx : c.ask .data with ⟨c₁,_ | e⟩
  · rw [hx] at hdata
    simp only [Option.map_none]
    split
    · exact told_nothing
    · exact told_nothing
    · rename_i content _ _
      have hsend := ask_same c₁ (.message header (String.ofList content)) nofun
      have htold := readStatuses_told x.finish
        (c₁.ask (.message header (String.ofList content))).1.rcpts x.answers
      rw [hsend.rcpts] at htold
      simp only [hsend.rcpts]
      have hlist : c₁.rcpts = c.rcpts := hdata.rcpts
      rw [hlist] at htold ⊢
      exact ⟨htold.names,htold.replies,fun hnone => htold.all (Option.map_eq_none_iff.mp hnone)⟩
  · exact told_nothing

end Replies

section Reports

theorem setAll_names (d : Delivery) (rcpts : List String) (err : Option Err) :
    (d.setAll rcpts err).map Prod.fst = if err.isSome then rcpts else [] := by
  cases err with
  | none => rfl
  | some e =>
    rw [setAll,map_map]
    exact map_id rcpts

theorem setAll_error {rcpts : List String} (h : (rcpt,none) ∈ d.setAll rcpts err) : False := by
  cases err with
  | none => cases h
  | some e =>
    obtain ⟨_,_,h⟩ := mem_map.mp h
    cases h

/-- The strings that get a status: all recipients if the body can not be opened,
and in any case those that were sent for the recipients with a reply, and the
other recipients. -/
theorem names_reported (hs : Sent env c d) (header : Header) (r : Reader Char) (e : Option Err)
    (x : Exchange) :
    (d.bodyNonAtomic env header ⟨some r,e⟩ x).statuses.map Prod.fst =
      (if e.isSome then d.rcpts else []) ++
        (d.conn.rcpts.take (d.conn.lmtpData env header r x).2.1.length ++
          d.rcpts.drop (d.conn.lmtpData env header r x).2.1.length) := by
  have htold := @lmtpData_told env d.conn header r x
  have hlen := hs.spelled.length_eq
  simp only [bodyNonAtomic,map_append,setAll_names,map_map,append_assoc]
  refine congrArg _ (congrArg₂ _ htold.names ?_)
  split
  · rfl
  · rename_i hnone
    have hall := htold.all (Option.not_isSome_iff_eq_none.mp hnone)
    rw [drop_of_length_le (by omega)]

theorem sent_ascii (h : Forall₂ (fun rcpt s => c.spelling env rcpt = .ok s) given sent)
    (hext : c.extension "SMTPUTF8" ≠ true) : ∀ s ∈ sent, Address.isASCII s = true := by
  induction h with
  | nil => simp
  | cons hs _ ih =>
    refine forall_mem_cons.mpr ⟨?_,ih⟩
    rcases spelling_cases hs with ⟨rfl,ha | hu⟩ | ⟨ha, -, -⟩
    · exact ha
    · exact absurd hu hext
    · exact ha

theorem sent_eq_given (h : Forall₂ (fun rcpt s => c.spelling env rcpt = .ok s) given sent)
    (hsame : c.extension "SMTPUTF8" = true ∨ ∀ rcpt ∈ given, Address.isASCII rcpt = true) :
    sent = given := by
  induction h with
  | nil => rfl
  | cons hs _ ih =>
    rcases spelling_cases hs with ⟨rfl, -⟩ | ⟨-,hnot,hext⟩
    · rw [ih (hsame.imp_right fun hall rcpt hr => hall rcpt (mem_cons_of_mem _ hr))]
    · obtain hu | hall := hsame
      · simp [hu] at hext
      · simp [hall _ mem_cons_self] at hnot

theorem take_perm_iff (hs : Sent env c d) (k : Nat) :
    (d.conn.rcpts.take k ++ d.rcpts.drop k).Perm d.rcpts ↔
      c.extension "SMTPUTF8" = true ∨ ∀ rcpt ∈ d.rcpts.take k, Address.isASCII rcpt = true := by
  have htake := forall₂_take k hs.spelled
  have hperm : (d.conn.rcpts.take k ++ d.rcpts.drop k).Perm d.rcpts ↔
      (d.conn.rcpts.take k).Perm (d.rcpts.take k) := by
    have hright : (d.conn.rcpts.take k ++ d.rcpts.drop k).Perm
        (d.rcpts.take k ++ d.rcpts.drop k) ↔ _ := perm_append_right_iff _
    rwa [take_append_drop] at hright
  rw [hperm]
  constructor
  · intro hp
    by_cases hext : c.extension "SMTPUTF8" = true
    · exact .inl hext
    · exact .inr fun rcpt hr => sent_ascii htake hext rcpt (hp.mem_iff.mpr hr)
  · intro hsame
    rw [sent_eq_given htake hsame]

theorem replied_eq (hs : Sent env c d) :
    d.rcpts.take (d.conn.lmtpData env header r x).2.1.length =
      d.rcpts.take (replyCount d.conn r x) := by
  rw [lmtpData_length,← hs.spelled.length_eq,← take_eq_take_min]

theorem reported_perm_iff (hs : Sent env c d) (header : Header) (r : Reader Char) (e : Option Err)
    (x : Exchange) :
    ((d.bodyNonAtomic env header ⟨some r,e⟩ x).statuses.map Prod.fst).Perm d.rcpts ↔
      (e = none ∨ d.rcpts = []) ∧ (c.extension "SMTPUTF8" = true ∨
        ∀ rcpt ∈ d.rcpts.take (replyCount d.conn r x), Address.isASCII rcpt = true) := by
  rw [← replied_eq hs]
  have hperm := take_perm_iff hs (d.conn.lmtpData env header r x).2.1.length
  have hlen := hs.spelled.length_eq
  rw [names_reported hs]
  cases e with
  | none =>
    rw [and_iff_right (.inl rfl)]
    exact hperm
  | some e =>
    constructor
    · intro hp
      -- Twice as many statuses as recipients.
      have htwice := hp.length_eq
      have hnone : d.rcpts = [] := by
        apply eq_nil_of_length_eq_zero
        simp only [Option.isSome_some,↓reduceIte,length_append,length_take,
          length_drop] at htwice
        omega
      exact ⟨.inr hnone,.inr (by simp [hnone])⟩
    · intro h
      obtain ⟨hopen,hsame⟩ := h
      obtain hopen | hnone := hopen
      · cases hopen
      · simpa [hnone] using hperm.mpr hsame

theorem accepted_of_nil (hs : Sent env c d) (hsame : c.extension "SMTPUTF8" = true ∨
      ∀ rcpt ∈ d.rcpts.take (replyCount d.conn r x), Address.isASCII rcpt = true)
    (h : (rcpt,none) ∈ (d.bodyNonAtomic env header ⟨some r,e⟩ x).statuses) :
    ∃ i : Nat, d.rcpts[i]? = some rcpt ∧ x.answers[i]? = some (Answer.status none) := by
  have htold := @lmtpData_told env d.conn header r x
  have hnames := htold.names
  rw [← replied_eq hs] at hsame
  rw [sent_eq_given (forall₂_take _ hs.spelled) hsame] at hnames
  simp only [bodyNonAtomic,mem_append,mem_map] at h
  obtain (h | ⟨⟨name,reply⟩,hcall,heq⟩) | h := h
  · exact (setAll_error h).elim
  · obtain ⟨i,hi⟩ := mem_iff_getElem?.mp hcall
    simp only [Prod.mk.injEq,Option.map_eq_none_iff] at heq
    obtain ⟨rfl,rfl⟩ := heq
    refine ⟨i,?_,htold.replies i _ hi⟩
    have hget := congrArg (·[i]?) hnames
    simp only [getElem?_map,hi,Option.map_some] at hget
    rw [List.getElem?_take_of_lt (List.getElem?_eq_some_iff.mp hi).1] at hget
    exact hget.symm
  · exact (setAll_error h).elim

theorem once_iff_perm (hn : d.rcpts.Nodup) {names : List String} :
    (∀ rcpt, names.count rcpt = if rcpt ∈ d.rcpts then 1 else 0) ↔ names.Perm d.rcpts := by
  rw [perm_iff_count]
  exact forall_congr' fun rcpt => by rw [Nodup.count hn]

end Reports

/-- Every recipient is reported once exactly if the buffer could be opened (or
there are no recipients, and it has given a reader) and the recipients that the
server has replied for were sent as they were given. -/
theorem lmtp_reports_iff (env : Env) (modName : String) (c : C) (hc : c.rcpts = [])
    (offered : List String) (d : Delivery)
    (hd : Delivery.addRcpts env ⟨modName,c,[]⟩ offered = d) (hn : d.rcpts.Nodup)
    (header : Header) (opened : Opened) (x : Exchange) :
    ReportsOnce d x.answers (d.bodyNonAtomic env header opened x) ↔
      ∃ r, opened.reader = some r ∧ (opened.err = none ∨ d.rcpts = []) ∧
        (c.extension "SMTPUTF8" = true ∨
          ∀ rcpt ∈ d.rcpts.take (replyCount d.conn r x), Address.isASCII rcpt = true) := by
  have hs : Sent env c d := by
    have hfirst : Sent env c ⟨modName,c,[]⟩ := by
      refine ⟨?_,fun _ => rfl⟩
      rw [hc]
      exact .nil
    rw [← hd]
    exact addRcpts_sent hfirst
  obtain ⟨reader,e⟩ := opened
  cases reader with
  | none =>
    constructor
    · intro h
      cases h.returns
    · intro h
      obtain ⟨r,hr, -⟩ := h
      cases hr
  | some r =>
    have hperm := reported_perm_iff hs header r e x
    constructor
    · intro h
      exact ⟨r,rfl,hperm.mp ((once_iff_perm hn).mp h.once)⟩
    · intro h
      obtain ⟨r',hr,hsame⟩ := h
      cases hr
      exact ⟨rfl,(once_iff_perm hn).mpr (hperm.mpr hsame),
        fun rcpt => accepted_of_nil hs hsame.2⟩

def oneDomain : Env where
  idnaToASCII _ := .ok "xn--tda.example"
  idnaToASCII_ascii := by
    rintro domain ace ⟨⟩
    decide
  opError _ := none

def oldServer : C :=
  { hostname := "mx.example"
    cl := some { server := ⟨fun _ _ => none,fun _ _ => false,fun _ => {}⟩ } }

def sendTo (rcpts : List String) : Delivery :=
  Delivery.addRcpts oneDomain ⟨"lmtp",oldServer,[]⟩ rcpts

def lostAfterOne : Exchange := { answers := [.status none,.broken (.leaf "reset by peer" none)] }

/-- The connection is lost after the reply for the first of two recipients. -/
theorem unanswered_rcpt_reported :
    (sendTo ["ann@a.example","bob@ü.example"]).rcpts = ["ann@a.example","bob@ü.example"] ∧
    ReportsOnce (sendTo ["ann@a.example","bob@ü.example"]) lostAfterOne.answers
      ((sendTo ["ann@a.example","bob@ü.example"]).bodyNonAtomic oneDomain []
        ⟨some ⟨[['h','i']],.eof⟩,none⟩ lostAfterOne) := by
  refine ⟨by decide,(lmtp_reports_iff oneDomain "lmtp" oldServer rfl
    ["ann@a.example","bob@ü.example"] _ rfl (by decide) [] ⟨some ⟨[['h','i']],.eof⟩,none⟩
    lostAfterOne).mpr ?_⟩
  exact ⟨_,rfl,.inl rfl,.inr (by decide)⟩

def gone : Err := .leaf "open /var/spool/body: no such file or directory" none

/-- If the file of the body is gone, the recipient gets the failure twice. And a
recipient whose address had to be respelled gets no status of its own. -/
theorem rcpt_reported_twice_or_never :
    ((sendTo ["ann@a.example"]).bodyNonAtomic oneDomain []
        ⟨some ⟨[],.other (.leaf "invalid argument" none)⟩,some gone⟩ lostAfterOne).statuses.map Prod.fst =
      ["ann@a.example","ann@a.example"] ∧
    (sendTo ["ann@ü.example"]).rcpts = ["ann@ü.example"] ∧
    ((sendTo ["ann@ü.example"]).bodyNonAtomic oneDomain [] ⟨some ⟨[['h','i']],.eof⟩,none⟩
        lostAfterOne).statuses.map Prod.fst = ["ann@xn--tda.example"] := by
  decide

end Madmail.Proofs.LmtpDownstream
