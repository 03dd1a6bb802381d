import Mathlib
import LocusMesh.Json

/-! The canonical bytes of a value without the text between: a string in plain ASCII is copied
byte by byte. -/
namespace CanonicalJson

/-- A byte that stands for a character without an escape. -/
def isBare (b : UInt8) : Bool :=
  32 ≤ b.toNat && b.toNat ≤ 126 && b.toNat != 34 && b.toNat != 92

def quoteBytes (s : String) : List UInt8 :=
  if s.toUTF8.data.toList.all isBare then 34 :: (s.toUTF8.data.toList ++ [34])
  else (quote s).flatMap String.utf8EncodeChar

mutual
def renderBytes : Json → List UInt8
  | .str s => quoteBytes s
  | .arr (v :: vs) => 91 :: (renderBytes v ++ itemsBytes vs)
  | .obj ((k,v) :: es) => 123 :: (quoteBytes k ++ 58 :: (renderBytes v ++ entriesBytes es))
  | v => (render v).flatMap String.utf8EncodeChar
def itemsBytes : List Json → List UInt8
  | [] => [93]
  | v :: vs => 44 :: (renderBytes v ++ itemsBytes vs)
def entriesBytes : List (String × Json) → List UInt8
  | [] => [125]
  | (k,v) :: es => 44 :: (quoteBytes k ++ 58 :: (renderBytes v ++ entriesBytes es))
end

theorem escapeChar_bare {c : Char} (h : ∀ b ∈ String.utf8EncodeChar c, isBare b = true) :
    escapeChar c = [c] := by
  have hbare (b : UInt8) (hmem : b ∈ String.utf8EncodeChar c) (hb : isBare b = false) : False :=
    Bool.false_ne_true (hb.symm.trans (h b hmem))
  unfold escapeChar
  split_ifs with h1 h2 h3 h4 h5 h6 h7 h8
  · exact (hbare 34 (by rw [h1]; decide) rfl).elim
  · exact (hbare 92 (by rw [h2]; decide) rfl).elim
  · exact (hbare 10 (by rw [h3]; decide) rfl).elim
  · exact (hbare 13 (by rw [h4]; decide) rfl).elim
  · exact (hbare 9 (by rw [h5]; decide) rfl).elim
  · exact (hbare 8 (by rw [h6]; decide) rfl).elim
  · exact (hbare 12 (by rw [h7]; decide) rfl).elim
  · have hvalue : c.val.toNat < 32 := h8
    have hencoded : String.utf8EncodeChar c = [UInt8.ofNat c.val.toNat] := by
      rw [String.utf8EncodeChar,if_pos (by omega)]
    have hcontrol : ∀ n < 32, isBare (UInt8.ofNat n) = false := by decide
    exact (hbare _ (by rw [hencoded]; exact List.mem_singleton_self _) (hcontrol _ hvalue)).elim
  · rfl

theorem escape_bare {cs : List Char}
    (h : ∀ b ∈ cs.flatMap String.utf8EncodeChar, isBare b = true) : escape cs = cs := by
  induction cs with
  | nil => rfl
  | cons c cs ih =>
    rw [List.flatMap_cons,List.forall_mem_append] at h
    have hrest := ih h.2
    rw [escape] at hrest
    rw [escape,List.flatMap_cons,escapeChar_bare h.1,hrest]
    rfl

theorem quoteBytes_eq (s : String) : quoteBytes s = (quote s).flatMap String.utf8EncodeChar := by
  by_cases hbare : s.toUTF8.data.toList.all isBare = true
  · have hbytes : s.toUTF8.data.toList = s.toList.flatMap String.utf8EncodeChar :=
      (encodeUtf8_eq s).symm
    rw [quoteBytes,if_pos hbare,quote,hbytes,escape_bare]
    · simp only [List.flatMap_cons,List.flatMap_append]
      rfl
    · rw [← hbytes]
      exact List.all_eq_true.mp hbare
  · rw [quoteBytes,if_neg hbare]

mutual
theorem renderBytes_eq (v : Json) :
    renderBytes v = (render v).flatMap String.utf8EncodeChar := by
  match v with
  | .null => rfl
  | .bool b => cases b <;> rfl
  | .int i => rfl
  | .str s => rw [renderBytes,render,quoteBytes_eq]
  | .arr [] => rfl
  | .arr (v :: vs) =>
    rw [renderBytes,render,List.flatMap_cons,List.flatMap_append,renderBytes_eq v,itemsBytes_eq vs]
    rfl
  | .obj [] => rfl
  | .obj ((k,v) :: es) =>
    rw [renderBytes,render,List.flatMap_cons,List.flatMap_append,List.flatMap_cons,
      List.flatMap_append,quoteBytes_eq,renderBytes_eq v,entriesBytes_eq es]
    rfl
theorem itemsBytes_eq (vs : List Json) :
    itemsBytes vs = (renderItems vs).flatMap String.utf8EncodeChar := by
  match vs with
  | [] => rfl
  | v :: vs =>
    rw [itemsBytes,renderItems,List.flatMap_cons,List.flatMap_append,renderBytes_eq v,
      itemsBytes_eq vs]
    rfl
theorem entriesBytes_eq (es : List (String × Json)) :
    entriesBytes es = (renderEntries es).flatMap String.utf8EncodeChar := by
  match es with
  | [] => rfl
  | (k,v) :: es =>
    rw [entriesBytes,renderEntries,List.flatMap_cons,List.flatMap_append,List.flatMap_cons,
      List.flatMap_append,quoteBytes_eq,renderBytes_eq v,entriesBytes_eq es]
    rfl
end

/-- The bytes of the canonical text, which is not decoded again. -/
theorem encodeUtf8_dumps (v : Json) : encodeUtf8 (dumps v) = renderBytes (sortKeys v) := by
  rw [encodeUtf8,dumps,String.toList_ofList,renderBytes_eq]

end CanonicalJson
