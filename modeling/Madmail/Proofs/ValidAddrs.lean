import Madmail.Modify.ReplaceAddr
import Madmail.Proofs.LocalParts
import Mathlib.Data.List.Infix

namespace Madmail.Proofs.ValidAddrs
open Exterrors Address Modify ReplaceAddr LocalParts List

section Domains
variable {idna : Idna} {idnaToASCII : String → Except Err String} {domain ascii : String}

def labels (name : String) : List (List Char) := name.toList.splitOn '.'

def octets (label : List Char) : Nat := (String.ofList label).utf8ByteSize

/-- The limits of the DNS. A dot at the end leaves an empty last label. -/
structure WithinLimits (name : String) : Prop where
  some : name ≠ ""
  nonempty : ∀ label ∈ (labels name).dropLast, 1 ≤ octets label
  label : ∀ label ∈ labels name, octets label ≤ 63
  total : name.utf8ByteSize ≤ 255

def isLiteral (domain : String) : Prop :=
  domain.toList.head? = some '[' ∧ domain.toList.getLast? = some ']'

theorem octets_pos : 1 ≤ octets label ↔ label ≠ [] := by
  simp [octets,Nat.one_le_iff_ne_zero]

theorem dots_of_empty (h : [] ∈ parts.dropLast) :
    (['.'].intercalate parts).head? = some '.' ∨ ['.','.'] <:+: ['.'].intercalate parts := by
  induction parts with
  | nil => cases h
  | cons x parts ih =>
    cases parts with
    | nil => cases h
    | cons y rest =>
      rw [intercalate_cons_cons]
      rw [dropLast_cons_cons] at h
      rcases mem_cons.mp h with rfl | h
      · exact .inl rfl
      · right
        rcases ih h with hdot | hdots
        · obtain ⟨tail,htail⟩ := head?_eq_some_iff.mp hdot
          rw [htail]
          exact ⟨x,tail,by simp⟩
        · exact hdots.trans (suffix_append _ _).isInfix

structure Accepted (domain ascii : String) : Prop where
  label : ∀ label ∈ labels ascii, octets label ≤ 64
  some : domain ≠ ""
  total : domain.utf8ByteSize ≤ 255
  nonempty : ∀ label ∈ (labels domain).dropLast, label ≠ []

theorem accepted_of_valid (hv : validDomain idna idnaToASCII domain = true) (hl : ¬ isLiteral domain)
    (ha : idnaToASCII domain = .ok ascii) : Accepted domain ascii := by
  unfold isLiteral at hl
  simp only [validDomain,hl,if_false,ha,Bool.if_false_left,Bool.and_eq_true,Bool.not_eq_true',
    decide_eq_false_iff_not,not_or,all_eq_true,decide_eq_true_eq] at hv
  obtain ⟨⟨hlong,hempty⟩,hdot,hdots,hlabel⟩ := hv
  refine ⟨hlabel,by rintro rfl; simp at hempty,by omega,fun label hm he => ?_⟩
  subst he
  have hjoin : ['.'].intercalate (labels domain) = domain.toList := intercalate_splitOn '.'
  have hempty := dots_of_empty hm
  rw [hjoin] at hempty
  rcases hempty with h | ⟨before,after,h⟩
  · exact hdot h
  · refine hdots (any_eq_true.mpr ⟨['.','.'] ++ after,?_,rfl⟩)
    exact (mem_tails _ _).mpr ⟨before,by rw [← append_assoc,h]⟩

instance (domain : String) : Decidable (isLiteral domain) := inferInstanceAs (Decidable (_ ∧ _))

/-- A name that is accepted keeps the limits exactly if its ASCII form has no label of 64 octets,
which is one too many, and is no longer and no emptier than the name that was looked at. -/
theorem domain_limits_iff (hv : validDomain idna idnaToASCII domain = true) (hl : ¬ isLiteral domain)
    (ha : idnaToASCII domain = .ok ascii) :
    (WithinLimits ascii ↔ (∀ label ∈ labels ascii, octets label ≠ 64) ∧ ascii ≠ "" ∧
      (∀ label ∈ (labels ascii).dropLast, label ≠ []) ∧ ascii.utf8ByteSize ≤ 255) ∧
    (ascii = domain → (WithinLimits ascii ↔ ∀ label ∈ labels ascii, octets label ≠ 64)) := by
  have hok := accepted_of_valid hv hl ha
  have hiff : WithinLimits ascii ↔ (∀ label ∈ labels ascii, octets label ≠ 64) ∧ ascii ≠ "" ∧
      (∀ label ∈ (labels ascii).dropLast, label ≠ []) ∧ ascii.utf8ByteSize ≤ 255 := by
    constructor
    · intro h
      refine ⟨fun label hm => ?_,h.some,fun label hm => octets_pos.mp (h.nonempty label hm),h.total⟩
      have hle := h.label label hm
      omega
    · rintro ⟨hlabel,hsome,hnonempty,htotal⟩
      refine ⟨hsome,fun label hm => octets_pos.mpr (hnonempty label hm),fun label hm => ?_,htotal⟩
      have hle := hok.label label hm
      have hne := hlabel label hm
      omega
  refine ⟨hiff,?_⟩
  rintro rfl
  rw [hiff]
  exact ⟨fun h => h.1,fun h => ⟨h,hok.some,hok.nonempty,hok.total⟩⟩

def plainIdna : Idna := { toUnicode := .ok, nfcLower := id, isIP := fun _ => false }

theorem short_name_within :
    WithinLimits "example.org" := by
  have hiff := (@domain_limits_iff plainIdna .ok "example.org" "example.org" (by decide) (by decide) rfl).2 rfl
  exact hiff.mpr (by decide)

/-- A label of 64 octets. -/
theorem long_label_accepted :
    validDomain plainIdna .ok (String.ofList (List.replicate 64 'a' ++ ".org".toList)) = true ∧
      ¬ WithinLimits (String.ofList (List.replicate 64 'a' ++ ".org".toList)) := by
  refine ⟨by decide,fun h => ?_⟩
  have hle := h.label (List.replicate 64 'a') (by decide)
  revert hle
  decide

end Domains

section Rewriting
variable {r : ReplaceAddr} {val mbox domain addr replacement : String} {rs results : List String}

theorem split_no_at (h : split addr = .ok (mbox,domain)) : '@' ∉ domain.toList := by
  unfold split at h
  split at h
  · cases h
    decide
  · split at h
    · cases h
    · dsimp only at h
      split at h
      · cases h
      · split at h
        · cases h
        · cases h
          simp only [String.toList_ofList,mem_reverse]
          intro hm
          simpa using mem_takeWhile_imp hm

/-- A local-part that is completed with a domain. -/
theorem valid_completed_iff (hat : '@' ∉ domain.toList) :
    r.valid (replacement ++ "@" ++ domain) = true ↔
      (replacement ++ "@" ++ domain).utf8ByteSize ≤ 320 ∧ replacement ≠ "" ∧ domain ≠ "" ∧
        validMailboxName replacement = true ∧ validDomain r.idna r.idnaToASCII domain = true := by
  unfold ReplaceAddr.valid Address.valid
  rw [split_at _ hat]
  by_cases hlong : (replacement ++ "@" ++ domain).utf8ByteSize > 320
  · rw [if_pos hlong]
    exact iff_of_false (by simp) fun h => by omega
  · rw [if_neg hlong]
    have hshort := not_lt.mp hlong
    by_cases hr : replacement = ""
    · simp [hr]
    · by_cases hd : domain = ""
      · simp [hr,hd]
      · simp only [hr,hd,hshort,if_false,decide_false,Bool.false_or,Bool.and_eq_true,ne_eq,
          not_false_eq_true,true_and]

def completed (domain replacement : String) : String :=
  if isFull replacement then replacement else replacement ++ "@" ++ domain

theorem complete_iff : r.complete domain replacement = .ok addr ↔
    addr = completed domain replacement ∧ (isFull replacement = true → r.valid replacement = true) := by
  unfold complete completed
  cases isFull replacement
  · simp [@eq_comm _ addr]
  · cases r.valid replacement <;> simp [@eq_comm _ addr]

theorem complete_all : rs.mapM (r.complete domain) = .ok results ↔
    results = rs.map (completed domain) ∧ ∀ x ∈ rs, isFull x = true → r.valid x = true := by
  induction rs generalizing results with
  | nil => exact ⟨fun h => ⟨(Except.ok.inj h).symm,by simp⟩,fun h => congrArg Except.ok h.1.symm⟩
  | cons x rest ih =>
    rw [mapM_cons,map_cons,forall_mem_cons]
    constructor
    · intro h
      cases hx : r.complete domain x with
      | error => rw [hx] at h; cases h
      | ok addr =>
        cases hrest : rest.mapM (r.complete domain) with
        | error => rw [hx,hrest] at h; cases h
        | ok addrs =>
          rw [hx,hrest] at h
          cases h
          obtain ⟨rfl,hfirst⟩ := complete_iff.mp hx
          obtain ⟨rfl,hothers⟩ := ih.mp hrest
          exact ⟨rfl,hfirst,hothers⟩
    · rintro ⟨rfl,hfirst,hothers⟩
      rw [complete_iff.mpr ⟨rfl,hfirst⟩,ih.mpr ⟨rfl,hothers⟩]
      rfl

/-- What is put before the domain is a mailbox name, and the domain can follow it. -/
structure Completable (r : ReplaceAddr) (domain replacement : String) : Prop where
  short : (replacement ++ "@" ++ domain).utf8ByteSize ≤ 320
  some : replacement ≠ ""
  domain_some : domain ≠ ""
  mailbox : validMailboxName replacement = true
  valid : validDomain r.idna r.idnaToASCII domain = true

/-- The replacements that the second lookup leads to. -/
inductive Replaced (r : ReplaceAddr) (val domain : String) : List String → Prop
  | found {normAddr mbox rs} (hnorm : forLookup r.idna val = .ok normAddr)
      (hnone : r.lookupMulti normAddr = .ok []) (hsplit : split normAddr = .ok (mbox,domain))
      (hfound : r.lookupMulti mbox = .ok rs)
      (hfull : ∀ x ∈ rs, isFull x = true → r.valid x = true) : Replaced r val domain rs

theorem rewrite_of_replaced (h : Replaced r val domain rs) (hx : addr ∈ rs) :
    r.rewrite val = .ok (rs.map (completed domain)) := by
  obtain ⟨hnorm,hnone,hsplit,hfound,hfull⟩ := h
  obtain ⟨x,rest,rfl⟩ := exists_cons_of_ne_nil (ne_nil_of_mem hx)
  simp only [rewrite,hnorm,hnone,hsplit,hfound]
  exact complete_all.mpr ⟨rfl,hfull⟩

/-- Where an address of the result that is not the one that was given comes from. -/
theorem rewrite_origin (h : r.rewrite val = .ok results) (hm : addr ∈ results) :
    addr = val ∨ r.valid addr = true ∨
      ∃ domain rs replacement, Replaced r val domain rs ∧ replacement ∈ rs ∧
        isFull replacement = false ∧ addr = replacement ++ "@" ++ domain := by
  revert h
  fun_cases rewrite r val <;> intro h
  case case3 | case5 =>
    cases h
    exact .inl (mem_singleton.mp hm)
  case case6 hnorm hnone mbox domain hsplit rs hne hfound =>
    obtain ⟨rfl,hfull⟩ := complete_all.mp h
    obtain ⟨x,hx,rfl⟩ := mem_map.mp hm
    unfold completed
    split
    next h => exact .inr (.inl (hfull x hx h))
    next h => exact .inr (.inr ⟨domain,rs,x,.found hnorm hnone hsplit hfound hfull,hx,by simpa using h,rfl⟩)
  case case8 hnone =>
    cases h
    have hv := find?_eq_none.mp hnone addr hm
    exact .inr (.inl (by simpa using hv))
  all_goals cases h

theorem domain_no_at (h : Replaced r val domain rs) : '@' ∉ domain.toList := by
  obtain ⟨hnorm,hnone,hsplit⟩ := h
  exact split_no_at hsplit

/-- Every address is the given one or valid exactly if the local-parts that the table answers with
are mailbox names and fit before the domain they are put before. -/
theorem rewritten_valid_iff (r : ReplaceAddr) (val : String) :
    (∀ results, r.rewrite val = .ok results → ∀ addr ∈ results, addr = val ∨ r.valid addr = true) ↔
      ∀ domain rs replacement, Replaced r val domain rs → replacement ∈ rs → isFull replacement = false →
        replacement ++ "@" ++ domain = val ∨ Completable r domain replacement := by
  have hcomplete {domain rs replacement} (h : Replaced r val domain rs) :
      r.valid (replacement ++ "@" ++ domain) = true ↔ Completable r domain replacement := by
    rw [valid_completed_iff (domain_no_at h)]
    exact ⟨fun ⟨h1,h2,h3,h4,h5⟩ => ⟨h1,h2,h3,h4,h5⟩,fun ⟨h1,h2,h3,h4,h5⟩ => ⟨h1,h2,h3,h4,h5⟩⟩
  constructor
  · intro hall domain rs x h hx hbare
    rw [← hcomplete h]
    refine hall _ (rewrite_of_replaced h hx) _ (mem_map.mpr ⟨x,hx,?_⟩)
    simp [completed,hbare]
  · intro hcond results h addr hm
    rcases rewrite_origin h hm with rfl | hv | ⟨domain,rs,x,hr,hx,hbare,rfl⟩
    · exact .inl rfl
    · exact .inr hv
    · rw [hcomplete hr]
      exact hcond domain rs x hr hx hbare

def aliasTable (key : String) : Except Err (List String) := .ok (if key = "user" then ["a b"] else [])

/-- A local-part with a blank that is not quoted. -/
theorem bare_replacement_invalid :
    ReplaceAddr.rewrite ⟨plainIdna,.ok,aliasTable⟩ "user@example.org" = .ok ["a b@example.org"] ∧
      ReplaceAddr.valid ⟨plainIdna,.ok,aliasTable⟩ "a b@example.org" = false := by
  decide

end Rewriting

end Madmail.Proofs.ValidAddrs
