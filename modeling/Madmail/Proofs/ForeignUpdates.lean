import Madmail.Updatepipe.UnixPipe
import Mathlib.Data.List.TakeWhile

namespace Madmail.Proofs.ForeignUpdates
open Updatepipe List

variable {α : Type} (usp : UnixSockPipe) (json : Json α)

def terminated (stream : List UInt8) : List (List UInt8) := (stream.splitOn 0x0A).dropLast

def fragment (stream : List UInt8) : List UInt8 := (stream.splitOn 0x0A).getLastD []

def short (line : List UInt8) : Bool := line.length < maxTokenSize

def foreign (token : List UInt8) : Option (Update α) :=
  match parseUpdate json token with
  | .error _ => none
  | .ok (id,upd) => if id = usp.myID then none else some upd

def foreignUpdates (lines : List (List UInt8)) : List (Update α) :=
  (lines.map dropCR).filterMap (foreign usp json)

def Accepted (token : List UInt8) : Prop := ∃ id upd, parseUpdate json token = .ok (id,upd)

def Own (token : List UInt8) : Prop := ∃ upd, parseUpdate json token = .ok (usp.myID,upd)

theorem myID_ne_nil : usp.myID ≠ [] := by
  simp [UnixSockPipe.myID]

theorem own_iff : Own usp json token ↔ Accepted json token ∧ foreign usp json token = none := by
  cases hp : parseUpdate json token with
  | error e => simp [Own,Accepted,hp]
  | ok parsed =>
    obtain ⟨id,upd⟩ := parsed
    simp [Own,Accepted,foreign,hp]

theorem forward_returned :
    usp.forward json tokens = (sent,.returned) ↔
      (∀ token ∈ tokens, Accepted json token) ∧ sent = tokens.filterMap (foreign usp json) := by
  induction tokens generalizing sent with
  | nil => simp [UnixSockPipe.forward,eq_comm]
  | cons token tokens ih =>
    rw [forall_mem_cons]
    cases hp : parseUpdate json token with
    | error e =>
      have hid : ([] : List UInt8) ≠ usp.myID := (myID_ne_nil usp).symm
      simp [UnixSockPipe.forward,hp,hid,Accepted]
    | ok parsed =>
      obtain ⟨id,upd⟩ := parsed
      have haccepted : Accepted json token := ⟨id,upd,hp⟩
      by_cases hid : id = usp.myID
      · have hforeign : foreign usp json token = none := by simp [foreign,hp,hid]
        simp only [UnixSockPipe.forward,hp,hid,if_true,filterMap_cons,hforeign]
        rw [ih]
        simp [haccepted]
      · have hforeign : foreign usp json token = some upd := by simp [foreign,hp,hid]
        simp only [UnixSockPipe.forward,hp,hid,if_false,filterMap_cons,hforeign,
          Prod.mk.injEq]
        constructor
        · rintro ⟨rfl,hended⟩
          obtain ⟨hall,hsent⟩ := ih.mp (Prod.ext rfl hended)
          exact ⟨⟨haccepted,hall⟩,congrArg (upd :: ·) hsent⟩
        · rintro ⟨⟨-,hall⟩,rfl⟩
          have := ih.mpr ⟨hall,rfl⟩
          simp [this]

/-- The tokens of the scanner: the lines before the first one that is too long, and what follows
the last line feed, if the scanner comes that far. -/
theorem scanLines_eq :
    scanLines (lines ++ [rest]) = (lines.takeWhile short).map dropCR ++
      if lines.all short ∧ rest ≠ [] ∧ short rest then [dropCR rest] else [] := by
  induction lines with
  | nil =>
    by_cases hrest : rest = []
    · simp [scanLines,hrest]
    · by_cases hshort : maxTokenSize ≤ rest.length
      · simp [scanLines,short,hshort,Nat.not_lt.mpr hshort]
      · simp [scanLines,short,hrest,hshort,Nat.lt_of_not_le hshort]
  | cons line lines ih =>
    have hscan : scanLines (line :: lines ++ [rest]) =
        if maxTokenSize ≤ line.length then [] else dropCR line :: scanLines (lines ++ [rest]) := by
      cases lines <;> rfl
    rw [hscan]
    by_cases hlong : maxTokenSize ≤ line.length
    · have hshort : short line = false := by simpa [short] using hlong
      simp [hlong,hshort]
    · have hshort : short line = true := by simpa [short] using hlong
      rw [if_neg hlong,ih,takeWhile_cons_of_pos hshort]
      simp [hshort]

theorem readUpdates_eq :
    usp.readUpdates json stream = usp.forward json
      (((terminated stream).takeWhile short).map dropCR ++
        if (terminated stream).all short ∧ fragment stream ≠ [] ∧ short (fragment stream) then
          [dropCR (fragment stream)]
        else []) := by
  have hne : stream.splitOn 0x0A ≠ [] := splitOnP_ne_nil _ _
  have hsplit : stream.splitOn 0x0A = terminated stream ++ [fragment stream] := by
    rw [terminated,fragment,getLastD_eq_getLast?,getLast?_eq_some_getLast hne,
      Option.getD_some,dropLast_append_getLast]
  rw [UnixSockPipe.readUpdates,hsplit,scanLines_eq]

/-- `readUpdates` does what it is for if every line before the first one that is too long is
accepted, no foreign update is in a line from there on, and what follows the last line feed, if it
gets to be read, is an update of its own. -/
theorem readUpdates_forwards_iff (stream : List UInt8) :
    usp.readUpdates json stream = (foreignUpdates usp json (terminated stream),.returned) ↔
      (∀ line ∈ (terminated stream).takeWhile short, Accepted json (dropCR line)) ∧
      foreignUpdates usp json ((terminated stream).dropWhile short) = [] ∧
      ((terminated stream).all short → fragment stream ≠ [] → short (fragment stream) →
        Own usp json (dropCR (fragment stream))) := by
  have hsplit : foreignUpdates usp json (terminated stream) =
      foreignUpdates usp json ((terminated stream).takeWhile short) ++
        foreignUpdates usp json ((terminated stream).dropWhile short) := by
    rw [foreignUpdates,foreignUpdates,foreignUpdates,← filterMap_append,← map_append,
      takeWhile_append_dropWhile]
  rw [readUpdates_eq,forward_returned,hsplit]
  generalize terminated stream = lines
  generalize fragment stream = rest
  split
  · obtain ⟨hall,hne,hshort⟩ := ‹_ ∧ _›
    have hdrop : lines.dropWhile short = [] := by
      rw [dropWhile_eq_nil_iff]
      simpa using hall
    have hlast : [dropCR rest].filterMap (foreign usp json) = [] ↔
        foreign usp json (dropCR rest) = none := by simp [filterMap_eq_nil_iff]
    rw [forall_mem_append,forall_mem_map,filterMap_append,hdrop]
    constructor
    · rintro ⟨⟨hlines,hrest⟩,hsent⟩
      have hnone := append_cancel_left hsent
      exact ⟨hlines,rfl,fun _ _ _ =>
        (own_iff usp json).mpr ⟨hrest _ mem_cons_self,hlast.mp hnone.symm⟩⟩
    · rintro ⟨hlines, -,hrest⟩
      obtain ⟨haccepted,hnone⟩ := (own_iff usp json).mp (hrest hall hne hshort)
      refine ⟨⟨hlines,by simpa using haccepted⟩,?_⟩
      rw [hlast.mpr hnone]
      rfl
  · rename_i htoken
    rw [append_nil,forall_mem_map]
    refine and_congr_right fun _ => ⟨fun hsent => ⟨?_,fun hall hne hshort => ?_⟩,fun h => ?_⟩
    · exact append_right_eq_self.mp hsent
    · exact absurd ⟨hall,hne,hshort⟩ htoken
    · rw [h.1,append_nil]
      rfl

theorem no_semicolon_panics : usp.readUpdates json [0x78,0x0A] = ([],.panicked) := by
  have hid : ([] : List UInt8) ≠ usp.myID := (myID_ne_nil usp).symm
  have htokens : scanLines (([0x78,0x0A] : List UInt8).splitOn 0x0A) = [[0x78]] := by decide
  rw [UnixSockPipe.readUpdates,htokens]
  simp [UnixSockPipe.forward,parseUpdate,semicolon,hid]

theorem malformed_line_panics :
    let usp : UnixSockPipe := ⟨4711,0xC000012000⟩
    let json : Json Unit := ⟨fun _ => .error "unexpected end",fun _ => .ok []⟩
    usp.readUpdates json [0x78,0x0A] = ([],.panicked) :=
  no_semicolon_panics _ _

end Madmail.Proofs.ForeignUpdates
