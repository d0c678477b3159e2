import Mathlib.Data.Multiset.AddSub

namespace Madmail.Lib.Permits

inductive Move (κ : Type) where
  | take (key : κ)
  | give (key : κ)

section Out
variable {κ : Type} [DecidableEq κ]

/-- The permits that are out after one more move. A permit that is not out can
not be given back. -/
def outAfter (out : Option (Multiset κ)) (move : Move κ) : Option (Multiset κ) :=
  out.bind fun held =>
    match move with
    | .take key => some (key ::ₘ held)
    | .give key => if key ∈ held then some (held.erase key) else none

def out (moves : List (Move κ)) : Option (Multiset κ) := moves.foldl outAfter (some 0)

/-- Every permit that was taken was given back once, later and under its key,
and nothing else was given back. -/
def Settled (moves : List (Move κ)) : Prop := out moves = some 0

@[simp]
theorem out_take (moves : List (Move κ)) (key : κ) :
    out (moves ++ [.take key]) = (out moves).map (key ::ₘ ·) := by
  unfold out
  rw [List.foldl_append]
  cases List.foldl outAfter (some 0) moves <;> rfl

theorem out_give_iff {moves : List (Move κ)} {key : κ} {held : Multiset κ} :
    out (moves ++ [.give key]) = some held ↔
      ∃ before, out moves = some before ∧ key ∈ before ∧ before.erase key = held := by
  unfold out
  rw [List.foldl_append]
  simp [outAfter,Option.bind_eq_some_iff]

@[simp]
theorem out_pass (moves : List (Move κ)) (key : κ) :
    out (moves ++ [.take key,.give key]) = out moves := by
  unfold out
  rw [List.foldl_append]
  cases List.foldl outAfter (some 0) moves <;> simp [outAfter]

end Out

structure Book (κ : Type) where
  moves : List (Move κ)
  held : Option κ

namespace Book
variable {κ : Type}

inductive Effect (κ : Type) where
  | keep
  | take (key : κ)
  -- A permit is taken and given back at once.
  | pass (key : κ)
  -- The permit that is held is given back under this key.
  | give (key : κ)
  -- It is given up without a call.
  | forget

def apply (b : Book κ) : Effect κ → Book κ
  | .keep => b
  | .take key => ⟨b.moves ++ [.take key],some key⟩
  | .pass key => { b with moves := b.moves ++ [.take key,.give key] }
  | .give key => if b.held.isSome then ⟨b.moves ++ [.give key],none⟩ else b
  | .forget => { b with held := none }

/-- The effects that lose no permit and mix none up. -/
def Lawful (b : Book κ) : Effect κ → Prop
  | .keep | .pass _ => True
  | .take _ | .forget => b.held = none
  | .give key => b.held = none ∨ b.held = some key

variable [DecidableEq κ] {b : Book κ}

def holding (b : Book κ) : Multiset κ := b.held.elim 0 (fun key => {key})

def Balanced (b : Book κ) : Prop := out b.moves = some b.holding

/-- A permit was given back that was not out, or more are out than are held. -/
def Spoiled (b : Book κ) : Prop :=
  ∀ held, out b.moves = some held → b.holding.card < held.card

theorem Balanced.apply (h : b.Balanced) {e : Effect κ} (he : b.Lawful e) :
    (b.apply e).Balanced := by
  unfold Balanced at h ⊢
  cases e with
  | keep => exact h
  | take key =>
    have hnone : b.held = none := he
    simp [Book.apply,h,holding,hnone]
  | pass key => exact (out_pass b.moves key).trans h
  | give key =>
    rcases he with hnone | hsome
    · simpa [Book.apply,hnone] using h
    · rw [holding,hsome] at h
      simp [Book.apply,hsome,out_give_iff,h,holding]
  | forget =>
    have hnone : b.held = none := he
    simpa [Book.apply,hnone,holding] using h

theorem Balanced.spoil (h : b.Balanced) (he : ¬ b.Lawful e) : (b.apply e).Spoiled := by
  unfold Balanced at h
  intro held hout
  cases e with
  | keep | pass _ => exact absurd trivial he
  | take key =>
    obtain ⟨k,hk⟩ := Option.ne_none_iff_exists'.mp he
    obtain rfl : key ::ₘ b.holding = held := by simpa [Book.apply,h] using hout
    simp [Book.apply,holding,hk]
  | give key =>
    obtain ⟨hne,hkey⟩ := not_or.mp he
    obtain ⟨k,hk⟩ := Option.ne_none_iff_exists'.mp hne
    have hdiff : key ≠ k := fun heq => hkey (by rw [hk,heq])
    simp [Book.apply,hk,out_give_iff,h,holding,hdiff] at hout
  | forget =>
    obtain ⟨k,hk⟩ := Option.ne_none_iff_exists'.mp he
    obtain rfl : b.holding = held := by simpa [Book.apply,h] using hout
    simp [Book.apply,holding,hk]

theorem Spoiled.apply (h : b.Spoiled) (e : Effect κ) : (b.apply e).Spoiled := by
  intro held hout
  cases e with
  | keep => exact h held hout
  | take key =>
    have hone : (b.apply (.take key)).holding.card = 1 := rfl
    obtain ⟨before,hb,rfl⟩ : ∃ before, out b.moves = some before ∧ key ::ₘ before = held := by
      simpa [Book.apply] using hout
    have hlt := h before hb
    rw [hone,Multiset.card_cons]
    omega
  | pass key => exact h held ((out_pass b.moves key).symm.trans hout)
  | give key =>
    simp only [Book.apply] at hout ⊢
    split at hout
    · next hs =>
      obtain ⟨k,hk⟩ := Option.isSome_iff_exists.mp hs
      obtain ⟨before,hb,hmem,rfl⟩ := out_give_iff.mp hout
      have hlt := h before hb
      have hcard := Multiset.card_erase_add_one hmem
      rw [if_pos hs]
      simp only [holding,hk,Option.elim_some,Option.elim_none,Multiset.card_singleton,
        Multiset.card_zero] at hlt ⊢
      omega
    · next hs =>
      rw [if_neg hs]
      exact h held hout
  | forget => exact Nat.lt_of_le_of_lt (Nat.zero_le _) (h held hout)

theorem Spoiled.not_balanced (h : b.Spoiled) : ¬ b.Balanced :=
  fun hb => Nat.lt_irrefl _ (h b.holding hb)

theorem settled_iff (hnone : b.held = none) : Settled b.moves ↔ b.Balanced := by
  simp [Settled,Balanced,holding,hnone]

end Book

end Madmail.Lib.Permits
