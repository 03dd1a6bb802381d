import Mathlib
import LocusMesh.ManagementUrl

/-! Which hosts the Mesh-LLM status observer contacts. The URL it was given is checked in one
spelling and requested in another, through a proxy where the environment names one. -/
namespace LocusMesh

open PyText PyUrl PyOpener IpAddress Fallible

/-- What a character becomes in lower case. -/
structure Lowered (c : Char) (piece : Text) : Prop where
  nonempty : piece ≠ []
  kept : (isAscii c = true ∧ isAsciiAlpha c = false) ∨ isSpace c = true → piece = [c]
  ascii : ∀ d ∈ piece, isAscii d = true → isAsciiAlpha d = false → d = c

/-- `str.lower` puts some text in the place of each character. An ASCII character without case,
or whitespace, stays, and no other character gives the former. -/
def LowersEach (u : Unicode) : Prop :=
  ∀ s, ∃ pieces, List.Forall₂ Lowered s pieces ∧ u.lower s = pieces.flatten

section Lowering

variable {s : Text} {pieces : List Text}

theorem lowered_length (h : List.Forall₂ Lowered s pieces) : s.length ≤ pieces.flatten.length := by
  induction h with
  | nil => rfl
  | cons hpiece _ ih =>
    have hone := List.length_pos_of_ne_nil hpiece.nonempty
    rw [List.flatten_cons,List.length_append,List.length_cons]
    omega

theorem lowered_mem (h : List.Forall₂ Lowered s pieces) {c : Char} (hascii : isAscii c = true)
    (halpha : isAsciiAlpha c = false) : c ∈ pieces.flatten ↔ c ∈ s := by
  induction h with
  | nil => rfl
  | @cons d piece s pieces hpiece _ ih =>
    rw [List.flatten_cons,List.mem_append,List.mem_cons,ih]
    refine or_congr_left ⟨fun hin => hpiece.ascii c hin hascii halpha,?_⟩
    rintro rfl
    rw [hpiece.kept (.inl ⟨hascii,halpha⟩)]
    exact List.mem_singleton_self c

theorem lowered_space {c : Char} (hc : isSpace c = true) :
    List.Forall₂ Lowered (s ++ [c]) pieces → pieces.flatten.getLast? = some c := by
  induction s generalizing pieces with
  | nil =>
    rintro (_ | ⟨hpiece,hrest⟩)
    cases hrest
    rw [hpiece.kept (.inr hc)]
    rfl
  | cons d s ih =>
    rintro (_ | ⟨hpiece,hrest⟩)
    rename_i piece pieces
    have htail := ih hrest
    have hne : pieces.flatten ≠ [] := by
      intro hempty
      rw [hempty] at htail
      cases htail
    rw [List.flatten_cons,List.getLast?_append_of_ne_nil _ hne,htail]

end Lowering

theorem LowersEach.keeps {u : Unicode} (h : LowersEach u) : LowerKeeps u := by
  constructor
  · intro s c hascii halpha
    obtain ⟨pieces,hpieces,hlower⟩ := h s
    rw [hlower,lowered_mem hpieces hascii halpha]
  · intro s c hspace
    obtain ⟨pieces,hpieces,hlower⟩ := h (s ++ [c])
    rw [hlower,lowered_space hspace hpieces]

theorem LowersEach.length_le {u : Unicode} (h : LowersEach u) (s : Text) :
    s.length ≤ (u.lower s).length := by
  obtain ⟨pieces,hpieces,hlower⟩ := h s
  rw [hlower]
  exact lowered_length hpieces

theorem portTail_no_escape {port : Option Text} (h : (port.getD []).all isDigit = true) :
    '%' ∉ portTail port := by
  cases port with
  | none => simp [portTail]
  | some port =>
    rw [portTail,List.mem_cons,not_or]
    exact ⟨by decide,fun hin => by simpa [isDigit] using List.all_eq_true.mp h '%' hin⟩

theorem unquote_spelled {before : Text} {sp : HostSpelling} (hbefore : '%' ∉ before)
    (hdigits : (sp.port.getD []).all isDigit = true)
    (hhost : sp.bracketed = false → '%' ∉ sp.host) :
    unquote (before ++ sp.text) =
        before ++ (written sp.bracketed (unquote sp.host) ++ portTail sp.port) ∧
      hasEscape (before ++ sp.text) = hasEscape sp.host := by
  have htail := hasEscape_of_not_mem (portTail_no_escape hdigits)
  have hfront := hasEscape_of_not_mem hbefore
  cases hb : sp.bracketed with
  | true =>
    have hsplit : before ++ sp.text =
        before ++ '[' :: (sp.host ++ ']' :: portTail sp.port) := by
      simp [HostSpelling.text,hb,written]
    rw [hsplit,unquote_append (by decide) rfl,unquote_append (by decide) rfl,
      hasEscape_append (by decide) rfl,hasEscape_append (by decide) rfl,hfront,htail,
      unquote_plain hfront,unquote_plain htail,Bool.false_or,Bool.or_false]
    exact ⟨by simp [written],rfl⟩
  | false =>
    have hplain : hasEscape sp.host = false := hasEscape_of_not_mem (hhost hb)
    have hall : hasEscape (before ++ sp.text) = false := by
      apply hasEscape_of_not_mem
      simp only [HostSpelling.text,hb,written,List.mem_append,not_or]
      exact ⟨hbefore,hhost hb,portTail_no_escape hdigits⟩
    rw [unquote_plain hall,unquote_plain hplain,hall,hplain,HostSpelling.text,hb]
    exact ⟨rfl,rfl⟩

section Requested

variable {u : Unicode} {p : ParseResult}

theorem Accepted.host_ne {sp : HostSpelling} (h : Accepted u p)
    (hinfo : hostinfo p.netloc = (sp.host,sp.port.getD [])) : sp.host ≠ [] := by
  intro hempty
  exact h.host (by simp [hostname,hinfo,hempty])

/-- The authority that is requested spells out the host of an accepted one, decoded. -/
theorem Accepted.requested (hlower : LowersEach u) (h : Accepted u p) :
    ∃ (before : Text) (sp : HostSpelling), p.netloc = before ++ sp.text ∧
      (before = [] ∧ '@' ∉ p.netloc ∨ before = ['@'] ∨ before = [':','@']) ∧
      hostinfo p.netloc = (sp.host,sp.port.getD []) ∧
      (sp.bracketed = false → unquote sp.host = sp.host) ∧
      unquote p.netloc = before ++ (written sp.bracketed (unquote sp.host) ++ portTail sp.port) ∧
      hasEscape p.netloc = hasEscape sp.host := by
  obtain ⟨before,sp,hnetloc,hat,hbefore,hinfo⟩ := h.spelled
  have hplain : sp.bracketed = false → '%' ∉ sp.host := fun hb =>
    (h.plainHost hlower.keeps hinfo (h.host_ne hinfo) hb).not_mem hlower.keeps rfl rfl
  have hfront : '%' ∉ before := by
    rcases hbefore with rfl | rfl | rfl <;> decide
  obtain ⟨hunquote,hescape⟩ := unquote_spelled hfront (h.port_digits hinfo).1 hplain
  rw [← hnetloc] at hunquote hescape
  refine ⟨before,sp,hnetloc,?_,hinfo,fun hb => unquote_plain (hasEscape_of_not_mem (hplain hb)),
    hunquote,hescape⟩
  rcases hbefore with rfl | hbefore
  · rw [List.nil_append] at hnetloc
    exact .inl ⟨rfl,hnetloc ▸ hat⟩
  · exact .inr hbefore

end Requested

namespace Demo

end Demo

end LocusMesh
