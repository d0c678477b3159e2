import Madmail.Proofs.PacketGrammar

namespace Madmail.Proofs.PayloadForms
open Lib Lib.Bytes PgpVerify PacketGrammar List

variable {line s p : List UInt8} {lines : List (List UInt8)} (e : LineEnd)

inductive LineEnd where
  | lf
  | crlf
  deriving DecidableEq, Repr

def LineEnd.octets : LineEnd → List UInt8
  | .lf => [0x0A]
  | .crlf => [0x0D,0x0A]

/-- A way to write data in armor: the white space around it, the lines between the first
one and the blank one, the lines of the base64 text and the line of the checksum. -/
structure Armor (data : List UInt8) where
  eol : LineEnd
  leading : List (List UInt8)
  headers : List (List UInt8)
  lines : List (List UInt8)
  checksum : Option (List UInt8)
  trailing : List (List UInt8)
  leading_space : ∀ w ∈ leading, w ∈ spaces
  trailing_space : ∀ w ∈ trailing, w ∈ spaces
  header_line : ∀ h ∈ headers, h ≠ [] ∧ 0x0A ∉ h
  width : ∀ l ∈ lines, l ≠ [] ∧ 4 ∣ l.length
  base64 : lines.flatten = Base64.encode data
  checksum_base64 : ∀ c ∈ checksum, c.length = 4 ∧ ∀ o ∈ c, (Base64.value o).isSome

namespace Armor

def ended (eol : LineEnd) (lines : List (List UInt8)) : List (List UInt8) :=
  lines.map (· ++ eol.octets)

def checksumLine {data : List UInt8} (a : Armor data) : List UInt8 :=
  match a.checksum with
  | none => []
  | some c => 0x3D :: c ++ a.eol.octets

def content {data : List UInt8} (a : Armor data) : List UInt8 :=
  (ended a.eol a.lines).flatten ++ a.checksumLine

/-- The armor without the white space around it. -/
def text {data : List UInt8} (a : Armor data) : List UInt8 :=
  (ended a.eol (header :: a.headers)).flatten ++ (a.eol.octets ++ (a.content ++ footer))

def render {data : List UInt8} (a : Armor data) : List UInt8 :=
  a.leading.flatten ++ (a.text ++ a.trailing.flatten)

end Armor

theorem spaces_ne_nil : [] ∉ spaces := by decide

theorem spaces_heads :
    spaces.all (fun w => w.head?.all fun c => !([0xC1,0xC3,0xD2].contains c)) = true := rfl

/-- No encoding of a white space starts another. -/
theorem spaces_code : IsCode (· ∈ spaces) :=
  isCode_of_prefix fun a b ha hb =>
    (by decide : ∀ a ∈ spaces, ∀ b ∈ spaces, a <+: b → a = b) a ha b hb

theorem spaces_code_back : IsCode (· ∈ spaces.map List.reverse) :=
  isCode_of_prefix fun a b ha hb =>
    (by decide : ∀ a ∈ spaces.map List.reverse, ∀ b ∈ spaces.map List.reverse, a <+: b → a = b)
      a ha b hb

theorem not_space_dash (h : w ∈ spaces) : ¬ w <+: 0x2D :: s ∧ ¬ w <:+ s ++ [0x2D] := by
  have hends := (by decide : ∀ w ∈ spaces, w.head? ≠ some 0x2D ∧ w.getLast? ≠ some 0x2D) w h
  have hne : w ≠ [] := fun he => spaces_ne_nil (he ▸ h)
  constructor
  · intro hp
    obtain ⟨c,w,rfl⟩ := exists_cons_of_ne_nil hne
    obtain ⟨t,ht⟩ := hp
    obtain ⟨rfl, -⟩ := cons_eq_cons.mp ht
    exact hends.1 rfl
  · rintro ⟨t,ht⟩
    have hlast := congrArg List.getLast? ht
    rw [getLast?_append_of_ne_nil _ hne,getLast?_append_of_ne_nil _ (by simp)] at hlast
    exact hends.2 hlast

theorem header_line_ok : header ≠ [] ∧ 0x0A ∉ header := by decide

theorem header_dash : header = 0x2D :: header.tail := rfl

theorem footer_dash : footer = footer.dropLast ++ [0x2D] := rfl

namespace Armor
variable {data : List UInt8} (a : Armor data)

theorem header_prefix : header <+: a.text := by
  refine ⟨a.eol.octets ++
    ((ended a.eol a.headers).flatten ++ (a.eol.octets ++ (a.content ++ footer))),?_⟩
  simp [text,ended]

theorem footer_suffix : footer <:+ a.text := by
  refine ⟨(ended a.eol (header :: a.headers)).flatten ++ (a.eol.octets ++ a.content),?_⟩
  simp [text]

theorem text_dashes : ∃ s t, a.text = 0x2D :: s ∧ a.text = t ++ [0x2D] := by
  obtain ⟨x,hx⟩ := a.header_prefix
  obtain ⟨y,hy⟩ := a.footer_suffix
  refine ⟨header.tail ++ x,y ++ footer.dropLast,?_,?_⟩
  · rw [← cons_append,← header_dash,hx]
  · rw [append_assoc,← footer_dash,hy]

/-- Trimming leaves the armor, which begins and ends with a dash. -/
theorem trim_render : trimWords spaces a.render = a.text := by
  obtain ⟨s,t,hs,ht⟩ := a.text_dashes
  apply trimWords_wrap spaces_ne_nil spaces_code spaces_code_back a.leading_space a.trailing_space
  · intro w hw
    rw [hs]
    exact (not_space_dash hw).1
  · intro w hw
    rw [ht]
    exact (not_space_dash hw).2

end Armor

theorem not_eol_line (hne : line ≠ []) (hline : 0x0A ∉ line) :
    ¬ e.octets <+: line ++ (e.octets ++ s) := by
  obtain ⟨c,cs,rfl⟩ := exists_cons_of_ne_nil hne
  rintro ⟨t,ht⟩
  cases e with
  | lf =>
    obtain ⟨rfl, -⟩ := cons_eq_cons.mp ht
    simp at hline
  | crlf =>
    obtain ⟨-,ht⟩ := cons_eq_cons.mp ht
    cases cs with
    | nil => simp [LineEnd.octets] at ht
    | cons d cs =>
      obtain ⟨rfl, -⟩ := cons_eq_cons.mp ht
      simp at hline

theorem after_line (hline : 0x0A ∉ line) :
    after (e.octets ++ e.octets) (line ++ (e.octets ++ s)) =
      after (e.octets ++ e.octets) (e.octets ++ s) := by
  apply after_append
  intro k hk hp
  have hne : line.drop k ≠ [] := by simpa [drop_eq_nil_iff] using hk
  have hdrop : 0x0A ∉ line.drop k := fun h => hline (mem_of_mem_drop h)
  exact not_eol_line e hne hdrop ((prefix_append _ _).trans hp)

theorem after_eol (hs : ¬ e.octets <+: s) :
    after (e.octets ++ e.octets) (e.octets ++ s) = after (e.octets ++ e.octets) s := by
  apply after_append
  intro k hk hp
  cases k with
  | zero => exact hs ((prefix_append_right_inj _).mp hp)
  | succ k =>
    cases e with
    | lf => simp [LineEnd.octets] at hk
    | crlf =>
      simp only [LineEnd.octets,length_cons,length_nil] at hk
      obtain rfl : k = 0 := by omega
      obtain ⟨t,ht⟩ := hp
      simp [LineEnd.octets] at ht

/-- The first two line ends in a row are those around the blank line. -/
theorem after_lines (h : ∀ l ∈ line :: lines, l ≠ [] ∧ 0x0A ∉ l) (s : List UInt8) :
    after (e.octets ++ e.octets) ((Armor.ended e (line :: lines)).flatten ++ (e.octets ++ s)) =
      some s := by
  induction lines generalizing line with
  | nil =>
    have hsep : e.octets ++ e.octets ≠ [] := by cases e <;> simp [LineEnd.octets]
    have hline := (h line mem_cons_self).2
    simp only [Armor.ended,map_cons,map_nil,flatten_cons,flatten_nil,
      append_nil,append_assoc]
    rw [after_line e hline,← append_assoc,after_sep hsep]
  | cons next lines ih =>
    have hline := (h line mem_cons_self).2
    have hrest := @ih next fun l hl => h l (mem_cons_of_mem _ hl)
    obtain ⟨hne,hnext⟩ := h next (by simp)
    simp only [Armor.ended,map_cons,flatten_cons,append_assoc] at hrest ⊢
    rw [after_line e hline,after_eol e (not_eol_line e hne hnext)]
    exact hrest

theorem apart_crlf_line (hline : 0x0A ∉ line) :
    Apart 0x0A 0x0A (line ++ LineEnd.crlf.octets) ∧
      (line ++ LineEnd.crlf.octets).head? ≠ some 0x0A := by
  have hcr : Apart 0x0A 0x0A (line ++ [0x0D]) := apart_of_not_mem (by simp [hline])
  have hlf : Apart (0x0A : UInt8) 0x0A [0x0A] := isChain_singleton _
  have h := hcr.append hlf (.inl (by simp))
  refine ⟨by simpa [LineEnd.octets] using h,?_⟩
  cases line with
  | nil => decide
  | cons c line =>
    intro hc
    have hlf : c = 0x0A := by simpa using hc
    exact hline (hlf ▸ mem_cons_self)

theorem not_removed_of_encode (h : c ∈ Base64.encode data) : c ≠ 0x0A ∧ c ≠ 0x0D ∧ c ≠ 0x20 := by
  rcases Base64.mem_encode h with hc | rfl
  · exact hc.2
  · decide

@[simp] theorem compact_append (s t : List UInt8) : compact (s ++ t) = compact s ++ compact t := by
  simp [compact]

@[simp] theorem compact_eol (e : LineEnd) : compact e.octets = [] := by
  cases e <;> rfl

theorem compact_eq_self (h : ∀ c ∈ s, c ≠ 0x0A ∧ c ≠ 0x0D ∧ c ≠ 0x20) : compact s = s := by
  simp only [compact,filter_filter]
  apply filter_eq_self.mpr
  intro c hc
  obtain ⟨h1,h2,h3⟩ := h c hc
  simp [h1,h2,h3]

theorem compact_ended (h : ∀ c ∈ lines.flatten, c ≠ 0x0A ∧ c ≠ 0x0D ∧ c ≠ 0x20) :
    compact (Armor.ended e lines).flatten = lines.flatten := by
  induction lines with
  | nil => rfl
  | cons line lines ih =>
    simp only [flatten_cons,mem_append] at h
    simp only [Armor.ended,map_cons,flatten_cons,compact_append,compact_eol,
      append_nil]
    rw [compact_eq_self fun c hc => h c (.inl hc)]
    exact congrArg (line ++ ·) (ih fun c hc => h c (.inr hc))

theorem head_ne_pad {e : List UInt8} (hlines : lines.flatten = e)
    (hwidth : ∀ l ∈ lines, l ≠ [] ∧ 4 ∣ l.length)
    (hgroups : ∀ k, (e.drop (4 * k)).head? ≠ some Base64.pad) :
    ∀ l ∈ lines, l.head? ≠ some Base64.pad := by
  induction lines generalizing e with
  | nil => simp
  | cons line lines ih =>
    obtain ⟨hne,n,hn⟩ := hwidth line mem_cons_self
    rw [flatten_cons] at hlines
    intro l hl
    rcases mem_cons.mp hl with rfl | hl
    · have h0 := hgroups 0
      rwa [Nat.mul_zero,drop_zero,← hlines,head?_append_of_ne_nil _ hne] at h0
    · refine ih (e := lines.flatten) rfl (fun l hl => hwidth l (mem_cons_of_mem _ hl)) ?_ l hl
      intro k
      have hk := hgroups (n + k)
      rwa [Nat.mul_add,← hn,← drop_drop,← hlines,drop_left] at hk

theorem decode_encode (data : List UInt8) : Base64.decode (Base64.encode data) = some data := by
  have hkeep : (Base64.encode data).filter (fun c => c ≠ 10 ∧ c ≠ 13) = Base64.encode data := by
    apply filter_eq_self.mpr
    intro c hc
    obtain ⟨h1,h2, -⟩ := not_removed_of_encode hc
    simp [h1,h2]
  rw [Base64.decode,hkeep,Base64.decodeGroups_encode]

theorem apart_pad_line (hline : 0x0A ∉ line) : Apart 0x0A 0x3D (line ++ e.octets) := by
  have heol : Apart 0x0A 0x3D e.octets ∧ e.octets.head? ≠ some 0x3D := by
    cases e with
    | lf => exact ⟨isChain_singleton _,by decide⟩
    | crlf => exact ⟨isChain_pair.mpr (by decide),by decide⟩
  exact (apart_of_not_mem hline).append heol.1 (.inr heol.2)

namespace Armor
variable {data : List UInt8} (a : Armor data)

theorem lines_keep : ∀ c ∈ a.lines.flatten, c ≠ 0x0A ∧ c ≠ 0x0D ∧ c ≠ 0x20 := by
  intro c hc
  rw [a.base64] at hc
  exact not_removed_of_encode hc

theorem line_no_lf (h : line ∈ a.lines) : 0x0A ∉ line :=
  fun hc => (a.lines_keep _ (mem_flatten.mpr ⟨line,h,hc⟩)).1 rfl

theorem line_head (h : line ∈ a.lines) : line.head? ≠ some Base64.pad :=
  head_ne_pad a.base64 a.width (Base64.head_drop_encode data) line h

theorem checksum_keep (h : a.checksum = some c) :
    ∀ o ∈ 0x3D :: c, o ≠ 0x0A ∧ o ≠ 0x0D ∧ o ≠ 0x20 := by
  intro o ho
  rcases mem_cons.mp ho with rfl | ho
  · decide
  · exact (Base64.isDatum_of_value ((a.checksum_base64 c h).2 o ho)).2

theorem apart_crlf (heol : a.eol = .crlf) : Apart 0x0A 0x0A a.text := by
  have hpieces : a.text = (ended .crlf (header :: a.headers) ++ [LineEnd.crlf.octets] ++
      ended .crlf a.lines ++ [a.checksumLine] ++ [footer]).flatten := by
    simp [text,content,heol]
  rw [hpieces]
  refine (apart_flatten fun piece hp => ?_).1
  simp only [mem_append,mem_singleton,ended,mem_map] at hp
  rcases hp with (((⟨line,hl,rfl⟩ | rfl) | ⟨line,hl,rfl⟩) | rfl) | rfl
  · rcases mem_cons.mp hl with rfl | hl
    · exact apart_crlf_line header_line_ok.2
    · exact apart_crlf_line (a.header_line line hl).2
  · exact apart_crlf_line not_mem_nil
  · exact apart_crlf_line (a.line_no_lf hl)
  · unfold checksumLine
    cases hc : a.checksum with
    | none => exact ⟨apart_of_not_mem (by simp),by simp⟩
    | some c =>
      simp only [heol]
      exact apart_crlf_line fun h => (a.checksum_keep hc _ h).1 rfl
  · exact ⟨apart_of_not_mem (by decide),by decide⟩

/-- What follows the blank line is the base64 text, whatever the header lines are. -/
theorem afterBlankLine_text : afterBlankLine a.text = some (a.content ++ footer) := by
  have hlines : ∀ l ∈ header :: a.headers, l ≠ [] ∧ 0x0A ∉ l := by
    intro l hl
    rcases mem_cons.mp hl with rfl | hl
    · exact header_line_ok
    · exact a.header_line l hl
  have hafter := after_lines a.eol hlines (a.content ++ footer)
  unfold afterBlankLine
  cases heol : a.eol with
  | lf =>
    rw [heol] at hafter
    have h : Bytes.after [0x0A,0x0A] a.text = some (a.content ++ footer) := by
      rw [text,heol]
      exact hafter
    rw [h]
  | crlf =>
    rw [heol] at hafter
    have hnone : Bytes.after [0x0A,0x0A] a.text = none := after_eq_none (a.apart_crlf heol).not_adjacent
    have h : Bytes.after [0x0D,0x0A,0x0D,0x0A] a.text = some (a.content ++ footer) := by
      rw [text,heol]
      exact hafter
    rw [hnone,h]

theorem apart_lines : Apart 0x0A 0x3D (ended a.eol a.lines).flatten := by
  refine (apart_flatten fun piece hp => ?_).1
  obtain ⟨line,hl,rfl⟩ := mem_map.mp hp
  refine ⟨apart_pad_line a.eol (a.line_no_lf hl),?_⟩
  rw [head?_append_of_ne_nil _ (a.width line hl).1]
  exact a.line_head hl

theorem apart_checksum (h : a.checksum = some c) : Apart 0x0A 0x3D (0x3D :: c ++ a.eol.octets) :=
  apart_pad_line a.eol fun hc => (a.checksum_keep h _ hc).1 rfl

theorem lines_end (h : data ≠ []) : ∃ s, (ended a.eol a.lines).flatten = s ++ [0x0A] := by
  have hlines : a.lines ≠ [] := by
    intro hnil
    have hb := a.base64
    rw [hnil] at hb
    exact h (Base64.encode_eq_nil.mp hb.symm)
  obtain ⟨init,last,hsplit⟩ : ∃ init last, a.lines = init ++ [last] :=
    ⟨a.lines.dropLast,a.lines.getLast hlines,(dropLast_append_getLast hlines).symm⟩
  rw [hsplit]
  cases a.eol with
  | lf => exact ⟨(ended .lf init).flatten ++ last,by simp [ended,LineEnd.octets]⟩
  | crlf => exact ⟨(ended .crlf init).flatten ++ last ++ [0x0D],by simp [ended,LineEnd.octets]⟩

end Armor

theorem dropChecksum_apart (h : Apart 0x0A 0x3D s) : dropChecksum s = s := by
  have hcr : ¬ [0x0D,0x0A,0x3D] <:+: s := fun hi =>
    h.not_adjacent ((suffix_cons 0x0D [0x0A,0x3D]).isInfix.trans hi)
  rw [dropChecksum,lastIndex_eq_none h.not_adjacent,lastIndex_eq_none hcr]

/-- The last line is cut off where it begins with an equals sign. -/
theorem dropChecksum_line (h : Apart 0x0A 0x3D (0x3D :: line)) :
    dropChecksum (s ++ [0x0A] ++ 0x3D :: line) = s := by
  have hsplit : s ++ [0x0A] ++ 0x3D :: line = s ++ 0x0A :: 0x3D :: line := by simp
  have hlast : lastIndex [0x0A,0x3D] (s ++ 0x0A :: 0x3D :: line) = some s.length :=
    lastIndex_append (by simp) ⟨line,rfl⟩ h.not_adjacent
  rw [hsplit,dropChecksum,hlast]
  exact take_left

theorem decode_checksum : Base64.decode (0x3D :: c) = none := by
  have hpad : Base64.value 0x3D = none := rfl
  rw [Base64.decode,filter_cons_of_pos (by decide)]
  generalize c.filter _ = s
  match s with
  | [] | [_] | [_,_] => rfl
  | b :: c :: d :: rest => simp only [Base64.decodeGroups,hpad]

namespace Armor
variable {data : List UInt8} (a : Armor data)

/-- The text decodes to the data. Without data, the checksum is taken for it, and does not
decode. -/
theorem decode_content :
    Base64.decode (compact (dropChecksum a.content)) =
      if a.checksum.isSome ∧ data = [] then none else some data := by
  have hlines : compact (ended a.eol a.lines).flatten = Base64.encode data := by
    rw [compact_ended a.eol a.lines_keep,a.base64]
  unfold content checksumLine
  cases hc : a.checksum with
  | none =>
    simp only [append_nil]
    rw [dropChecksum_apart a.apart_lines,hlines,decode_encode]
    rfl
  | some c =>
    by_cases hdata : data = []
    · have hnil : a.lines = [] := by
        refine eq_nil_iff_forall_not_mem.mpr fun line hl => (a.width line hl).1 ?_
        have hb : a.lines.flatten = [] := a.base64.trans (Base64.encode_eq_nil.mpr hdata)
        exact flatten_eq_nil_iff.mp hb line hl
      simp only [hnil,ended,map_nil,flatten_nil,nil_append]
      rw [dropChecksum_apart (a.apart_checksum hc),compact_append,compact_eol,append_nil,
        compact_eq_self (a.checksum_keep hc),decode_checksum]
      simp [hdata]
    · obtain ⟨s,hs⟩ := a.lines_end hdata
      have hend : compact s = Base64.encode data := by
        rw [hs,compact_append] at hlines
        simpa [compact] using hlines
      simp only [hs,cons_append]
      have hline : Apart 0x0A 0x3D (0x3D :: (c ++ a.eol.octets)) := a.apart_checksum hc
      rw [dropChecksum_line hline,hend,decode_encode]
      simp [hdata]

end Armor

/-- The payload in an armored part is the data that was armored. -/
theorem isValidEncryptedPayload_armor {data : List UInt8} (a : Armor data) :
    isValidEncryptedPayload a.render = isEncryptedOpenPGPPayload data := by
  have hunarmor : unarmor a.text = if a.checksum.isSome ∧ data = [] then none else some data := by
    have hfooter : lastIndex footer (a.content ++ footer) = some a.content.length :=
      lastIndex_at_end (by decide)
    rw [unarmor,a.afterBlankLine_text]
    simp only [hfooter,take_left]
    exact a.decode_content
  simp only [isValidEncryptedPayload,a.trim_render,a.header_prefix,a.footer_suffix,and_self,
    if_true,hunarmor]
  split
  · rename_i hnone
    split at hnone
    · rename_i h
      rw [h.2]
      rfl
    · cases hnone
  · rename_i decoded hsome
    split at hsome
    · cases hsome
    · cases hsome
      rfl

/-- An SEIPD packet with a header line, two lines of base64 and a checksum. -/
def armoredPacket : Armor [0xD2,0x04,0x01,0x02,0x03,0x04] where
  eol := .crlf
  leading := [[0x0A]]
  headers := [ascii "Version: 1"]
  lines := [ascii "0gQB",ascii "AgME"]
  checksum := some (ascii "v4F+")
  trailing := [[0x0D],[0x0A]]
  leading_space := by decide
  trailing_space := by decide
  header_line := by decide +kernel
  width := by decide
  base64 := by decide
  checksum_base64 := by decide +kernel

theorem armoredPacket_accepted : isValidEncryptedPayload armoredPacket.render = .returned true :=
  (isValidEncryptedPayload_armor armoredPacket).trans (by decide)

theorem packet_code : IsCode fun p => (Packet 1 p ∨ Packet 3 p) ∨ Packet 18 p := by
  have hcode : ∀ {t u : Nat} {a b x y : List UInt8},
      Packet t a → Packet u b → a ++ x = b ++ y → a = b := by
    intro t u a b x y ha hb h
    cases ha with
    | mk tag body _ _ hbody =>
      cases hb with
      | mk tag' body' _ _ hbody' =>
        obtain ⟨rfl,hrest⟩ := cons_eq_cons.mp h
        -- both bodies end where the lengths in them say
        have hend : packetEnd (body ++ x) 0 = .ok (0 + body.length) := packetEnd_of_lengths hbody rfl
        have hend' : packetEnd (body ++ x) 0 = .ok (0 + body'.length) :=
          packetEnd_of_lengths hbody' hrest
        rw [hend] at hend'
        have hlen : body.length = body'.length := by simpa using hend'
        rw [(append_inj hrest hlen).1]
  rintro a b x y ((ha | ha) | ha) ((hb | hb) | hb) h
  all_goals exact hcode ha hb h

theorem packet_type_unique (h : Packet t p) (h' : Packet u p) : t = u := by
  cases h with
  | mk _ _ _ ht _ =>
    cases h' with
    | mk _ _ _ hu _ => exact ht.symm.trans hu

/-- No encrypted payload goes on after the end of another. -/
theorem encrypted_code : IsCode Encrypted := by
  apply packet_code.closed_by
  rintro p (h | h) h'
  all_goals cases packet_type_unique h h'

/-- The first octet of an encrypted payload is the tag of a packet, and no white space. -/
theorem encrypted_head (h : Encrypted p) : ∃ tag rest, p = tag :: rest ∧ tag ∈ [0xC1,0xC3,0xD2] := by
  cases p with
  | nil => exact absurd h not_encrypted_nil
  | cons tag rest =>
    refine ⟨tag,rest,rfl,?_⟩
    obtain ⟨htag,b,x, -, -,hcase⟩ := encrypted_cons.mp h
    have hlt := tag.toNat_lt
    have hnat : tag.toNat = 0xC1 ∨ tag.toNat = 0xC3 ∨ tag.toNat = 0xD2 := by
      rcases hcase with ⟨h18, -⟩ | ⟨h1 | h3, -⟩
      all_goals omega
    simpa [← UInt8.toNat_inj] using hnat

theorem isEncryptedOpenPGPPayload_accepts :
    isEncryptedOpenPGPPayload p = .returned true ↔ Encrypted p := by
  rcases isEncryptedOpenPGPPayload_returns with ⟨h,henc⟩ | ⟨h,henc⟩
  · exact iff_of_true h henc
  · exact iff_of_false (by simp [h]) henc

/-- Trimming takes octets off the end of a binary payload only. -/
theorem isValidEncryptedPayload_binary (h : Encrypted p) :
    ∃ t, t <+: p ∧ isValidEncryptedPayload p = isEncryptedOpenPGPPayload t ∧
      (t = p ↔ ∀ w ∈ spaces, ¬ w <:+ p) := by
  obtain ⟨tag,rest,hp,htag⟩ := encrypted_head h
  have hfront : trimFront spaces p.length p = p := by
    refine trimFront_stop (fun w hw hpre => ?_) _
    have hheads := all_eq_true.mp spaces_heads w hw
    have hne : w ≠ [] := fun he => spaces_ne_nil (he ▸ hw)
    obtain ⟨c,w,rfl⟩ := exists_cons_of_ne_nil hne
    obtain ⟨x,hx⟩ := hpre
    rw [hp] at hx
    obtain ⟨rfl, -⟩ := cons_eq_cons.mp hx
    simp only [head?_cons,Option.all_some,Bool.not_eq_true',contains_eq_mem,
      decide_eq_false_iff_not] at hheads
    exact hheads htag
  have htrim : trimWords spaces p =
      (trimFront (spaces.map List.reverse) p.length p.reverse).reverse := by
    simp only [trimWords,hfront]
  have hprefix : trimWords spaces p <+: p := by
    rw [htrim,← reverse_suffix,reverse_reverse]
    exact trimFront_suffix _ _
  refine ⟨trimWords spaces p, hprefix,?_,?_⟩
  · have hbinary : ¬ header <+: trimWords spaces p := by
      intro hh
      obtain ⟨x,hx⟩ := hh.trans hprefix
      rw [header_dash,hp] at hx
      obtain ⟨rfl, -⟩ := cons_eq_cons.mp hx
      exact absurd htag (by decide)
    simp [isValidEncryptedPayload,hbinary]
  · rw [htrim]
    constructor
    · intro heq w hw hsuf
      have hword : w.reverse ∈ spaces.map List.reverse := mem_map.mpr ⟨w,hw,rfl⟩
      have hpos : 0 < p.length := by simp [hp]
      refine trimFront_ne (by decide) hword ( reverse_prefix.mpr hsuf) hpos ?_
      rw [← reverse_inj,reverse_reverse]
      exact heq
    · intro hno
      rw [trimFront_stop,reverse_reverse]
      intro w hw hpre
      obtain ⟨v,hv,rfl⟩ := mem_map.mp hw
      exact hno v hv ( reverse_prefix.mp hpre)

/-- A binary payload is accepted if its last octets are not those of a space. What is left of
it otherwise is never accepted. -/
theorem binary_accepted_iff (p : List UInt8) (h : isEncryptedOpenPGPPayload p = .returned true) :
    isValidEncryptedPayload p = .returned true ↔ ∀ w ∈ spaces, ¬ w <:+ p := by
  have henc := isEncryptedOpenPGPPayload_accepts.mp h
  obtain ⟨t,⟨y,hy⟩,hvalid,hend⟩ := isValidEncryptedPayload_binary henc
  rw [hvalid,isEncryptedOpenPGPPayload_accepts,← hend]
  constructor
  · intro ht
    exact encrypted_code ht henc (by rw [hy,append_nil])
  · rintro rfl
    exact henc

theorem binary_accepted_octet :
    isEncryptedOpenPGPPayload [0xD2,1,0x41] = .returned true ∧
      (isValidEncryptedPayload [0xD2,1,0x41] = .returned true ↔
        ∀ w ∈ spaces, ¬ w <:+ [0xD2,1,0x41]) ∧
      ∀ w ∈ spaces, ¬ w <:+ [0xD2,1,0x41] :=
  ⟨rfl,binary_accepted_iff [0xD2,1,0x41] rfl,by decide⟩

/-- Data of one octet, which is a blank: without it the length announces more than there is. -/
theorem binary_blank_refused :
    isEncryptedOpenPGPPayload [0xD2,1,0x20] = .returned true ∧
      isValidEncryptedPayload [0xD2,1,0x20] = .returned false :=
  ⟨rfl,rfl⟩

end Madmail.Proofs.PayloadForms
