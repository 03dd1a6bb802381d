import Mathlib
import LocusMesh.Collections

/-! JSON values without floats and their canonical text: compact separators, entries
sorted by key, and only the mandatory escapes. The text determines the value up to
the order in which object entries were written. -/
namespace CanonicalJson

open PyCollections

inductive Json
  | null
  | bool (b : Bool)
  | int (i : ℤ)
  | str (s : String)
  | arr (items : List Json)
  | obj (entries : List (String × Json))

/-- The escapes of `json.dumps(..., ensure_ascii=False)`. -/
def escapeChar (c : Char) : List Char :=
  if c = '"' then ['\\','"']
  else if c = '\\' then ['\\','\\']
  else if c = '\n' then ['\\','n']
  else if c = '\r' then ['\\','r']
  else if c = '\t' then ['\\','t']
  else if c = '\x08' then ['\\','b']
  else if c = '\x0c' then ['\\','f']
  else if c.toNat < 32 then
    ['\\','u','0','0',Nat.digitChar (c.toNat / 16),Nat.digitChar (c.toNat % 16)]
  else [c]

def escape (cs : List Char) : List Char := cs.flatMap escapeChar

def quote (s : String) : List Char := '"' :: (escape s.toList ++ ['"'])

def intText : ℤ → List Char
  | .ofNat n => Nat.toDigits 10 n
  | .negSucc n => '-' :: Nat.toDigits 10 (n+1)

def hexValue (c : Char) : ℕ := if c.isDigit then c.toNat - 48 else c.toNat - 87

/-- Read one possibly escaped character back. -/
def unescapeChar : List Char → Option (Char × List Char)
  | '\\' :: 'u' :: _ :: _ :: a :: b :: r => some (Char.ofNat (16 * hexValue a + hexValue b),r)
  | '\\' :: 'n' :: r => some ('\n',r)
  | '\\' :: 'r' :: r => some ('\r',r)
  | '\\' :: 't' :: r => some ('\t',r)
  | '\\' :: 'b' :: r => some ('\x08',r)
  | '\\' :: 'f' :: r => some ('\x0c',r)
  | '\\' :: c :: r => some (c,r)
  | c :: r => some (c,r)
  | [] => none

theorem hexValue_digitChar : ∀ d < 16, hexValue (Nat.digitChar d) = d := by decide

theorem unescapeChar_escapeChar (c : Char) (r : List Char) :
    unescapeChar (escapeChar c ++ r) = some (c,r) := by
  unfold escapeChar
  split_ifs with h1 h2 h3 h4 h5 h6 h7 h8
  · subst h1; rfl
  · subst h2; rfl
  · subst h3; rfl
  · subst h4; rfl
  · subst h5; rfl
  · subst h6; rfl
  · subst h7; rfl
  · have ha := hexValue_digitChar (c.toNat / 16) (by omega)
    have hb := hexValue_digitChar (c.toNat % 16) (by omega)
    have hc : 16 * (c.toNat / 16) + c.toNat % 16 = c.toNat := by omega
    simp only [List.cons_append,List.nil_append,unescapeChar,ha,hb,hc,Char.ofNat_toNat]
  · rw [List.singleton_append,unescapeChar.eq_def]
    split <;> simp_all

theorem escapeChar_ne_quote (c : Char) (r s : List Char) : escapeChar c ++ r ≠ '"' :: s := by
  unfold escapeChar
  split_ifs <;> simp_all

/-- The closing quote is the first bare one, so a quoted text ends where it ends. -/
theorem escape_inj {cs ds r s : List Char}
    (h : escape cs ++ '"' :: r = escape ds ++ '"' :: s) : cs = ds ∧ r = s := by
  induction cs generalizing ds with
  | nil =>
    cases ds with
    | nil => simpa [escape] using h
    | cons d ds =>
      simp only [escape,List.flatMap_nil,List.nil_append,List.flatMap_cons,List.append_assoc] at h
      exact absurd h.symm (escapeChar_ne_quote d _ _)
  | cons c cs ih =>
    cases ds with
    | nil =>
      simp only [escape,List.flatMap_nil,List.nil_append,List.flatMap_cons,List.append_assoc] at h
      exact absurd h (escapeChar_ne_quote c _ _)
    | cons d ds =>
      simp only [escape,List.flatMap_cons,List.append_assoc] at h
      have hd := congrArg unescapeChar h
      simp only [unescapeChar_escapeChar,Option.some.injEq,Prod.mk.injEq] at hd
      obtain ⟨hcs,hr⟩ := ih hd.2
      exact ⟨by rw [hd.1,hcs],hr⟩

theorem quote_inj {a b : String} {r s : List Char} (h : quote a ++ r = quote b ++ s) :
    a = b ∧ r = s := by
  simp only [quote,List.cons_append,List.cons.injEq,true_and,List.append_assoc,
    List.nil_append] at h
  obtain ⟨hab,hrs⟩ := escape_inj h
  exact ⟨String.toList_inj.mp hab,hrs⟩

/-- What may follow a number: nothing that would extend it. -/
def Closed (r : List Char) : Prop := ∀ c ∈ r.head?, c.isDigit = false

theorem takeWhile_digits {ds r : List Char} (hds : ∀ c ∈ ds, c.isDigit = true)
    (hr : Closed r) : (ds ++ r).takeWhile Char.isDigit = ds := by
  rw [List.takeWhile_append_of_pos hds]
  cases r with
  | nil => simp
  | cons c r => simp [hr c rfl]

theorem toDigits_inj {n m : ℕ} {r s : List Char} (hr : Closed r) (hs : Closed s)
    (h : Nat.toDigits 10 n ++ r = Nat.toDigits 10 m ++ s) : n = m ∧ r = s := by
  have hdigit : ∀ k, ∀ c ∈ Nat.toDigits 10 k, c.isDigit = true :=
    fun k c hc => Nat.isDigit_of_mem_toDigits (by decide) (by decide) hc
  have ht := congrArg (List.takeWhile Char.isDigit) h
  rw [takeWhile_digits (hdigit n) hr,takeWhile_digits (hdigit m) hs] at ht
  refine ⟨?_,List.append_cancel_left (ht ▸ h)⟩
  rw [← Nat.ofDigitChars_ten_toDigits (n:=n),ht,Nat.ofDigitChars_ten_toDigits]

theorem toDigits_head (n : ℕ) : ∃ c cs, Nat.toDigits 10 n = c :: cs ∧ c.isDigit = true := by
  cases h : Nat.toDigits 10 n with
  | nil => exact absurd h Nat.toDigits_ne_nil
  | cons c cs =>
    exact ⟨c,cs,rfl,Nat.isDigit_of_mem_toDigits (by decide) (by decide) (h ▸ List.mem_cons_self)⟩

theorem intText_inj {i j : ℤ} {r s : List Char} (hr : Closed r) (hs : Closed s)
    (h : intText i ++ r = intText j ++ s) : i = j ∧ r = s := by
  have hminus : ∀ n (t u : List Char), Nat.toDigits 10 n ++ t ≠ '-' :: u := by
    intro n t u hh
    obtain ⟨c,cs,hn,hc⟩ := toDigits_head n
    rw [hn,List.cons_append,List.cons.injEq] at hh
    rw [hh.1] at hc
    exact absurd hc (by decide)
  cases i with
  | ofNat n =>
    cases j with
    | ofNat m =>
      obtain ⟨hnm,hrs⟩ := toDigits_inj hr hs h
      exact ⟨by rw [hnm],hrs⟩
    | negSucc m => exact absurd h (hminus n _ _)
  | negSucc n =>
    cases j with
    | ofNat m => exact absurd h.symm (hminus m _ _)
    | negSucc m =>
      simp only [intText,List.cons_append,List.cons.injEq,true_and] at h
      obtain ⟨hnm,hrs⟩ := toDigits_inj hr hs h
      exact ⟨by rw [show n = m by omega],hrs⟩

mutual
def render : Json → List Char
  | .null => "null".toList
  | .bool true => "true".toList
  | .bool false => "false".toList
  | .int i => intText i
  | .str s => quote s
  | .arr [] => ['[',']']
  | .arr (v :: vs) => '[' :: (render v ++ renderItems vs)
  | .obj [] => ['{','}']
  | .obj ((k,v) :: es) => '{' :: (quote k ++ ':' :: (render v ++ renderEntries es))
def renderItems : List Json → List Char
  | [] => [']']
  | v :: vs => ',' :: (render v ++ renderItems vs)
def renderEntries : List (String × Json) → List Char
  | [] => ['}']
  | (k,v) :: es => ',' :: (quote k ++ ':' :: (render v ++ renderEntries es))
end

inductive Kind
  | null | bool | int | str | arr | obj
  deriving DecidableEq

def kind : Json → Kind
  | .null => .null
  | .bool _ => .bool
  | .int _ => .int
  | .str _ => .str
  | .arr _ => .arr
  | .obj _ => .obj

/-- The kind of a value shows in the first character of its text. -/
def kindOf (c : Char) : Option Kind :=
  if c.isDigit ∨ c = '-' then some .int
  else if c = 'n' then some .null
  else if c = 't' ∨ c = 'f' then some .bool
  else if c = '"' then some .str
  else if c = '[' then some .arr
  else if c = '{' then some .obj
  else none

theorem render_head (v : Json) : ∃ c cs, render v = c :: cs ∧ kindOf c = some (kind v) := by
  cases v with
  | null => exact ⟨_,_,rfl,by decide⟩
  | bool b => cases b <;> exact ⟨_,_,rfl,by decide⟩
  | int i =>
    cases i with
    | ofNat n =>
      obtain ⟨c,cs,hn,hc⟩ := toDigits_head n
      exact ⟨c,cs,hn,by simp [kindOf,kind,hc]⟩
    | negSucc n => exact ⟨_,_,rfl,rfl⟩
  | str s => exact ⟨_,_,rfl,rfl⟩
  | arr vs => cases vs <;> exact ⟨_,_,by rw [render],rfl⟩
  | obj es => rcases es with _ | ⟨⟨k,v⟩,es⟩ <;> exact ⟨_,_,by rw [render],rfl⟩

theorem kind_eq {v w : Json} {r s : List Char} (h : render v ++ r = render w ++ s) :
    kind v = kind w := by
  obtain ⟨c,cs,hv,hc⟩ := render_head v
  obtain ⟨d,ds,hw,hd⟩ := render_head w
  rw [hv,hw,List.cons_append,List.cons_append,List.cons.injEq] at h
  rw [h.1,hd] at hc
  exact (Option.some.inj hc).symm

/-- No value starts with a character that closes a bracket. -/
theorem render_ne_close (v : Json) {c : Char} (hc : kindOf c = none) (r s : List Char) :
    render v ++ r ≠ c :: s := by
  intro h
  obtain ⟨d,ds,hv,hd⟩ := render_head v
  rw [hv,List.cons_append,List.cons.injEq] at h
  rw [h.1,hc] at hd
  exact absurd hd (by simp)

theorem closed_cons {c : Char} (hc : c.isDigit = false) (r : List Char) : Closed (c :: r) := by
  intro d hd
  rw [← Option.some.inj hd]
  exact hc

theorem renderItems_closed (vs : List Json) (r : List Char) : Closed (renderItems vs ++ r) := by
  cases vs <;> simp only [renderItems,List.cons_append] <;> exact closed_cons (by decide) _

theorem renderEntries_closed (es : List (String × Json)) (r : List Char) :
    Closed (renderEntries es ++ r) := by
  rcases es with _ | ⟨⟨k,v⟩,es⟩ <;> simp only [renderEntries,List.cons_append] <;>
    exact closed_cons (by decide) _

/- A text is read back from the left: the first character fixes the constructor, and
each part ends where the next delimiter says, so the parts are equal one by one. -/
mutual
theorem render_inj : ∀ (v w : Json) (r s : List Char), Closed r → Closed s →
    render v ++ r = render w ++ s → v = w ∧ r = s
  | .null, w, r, s, _, _, h => by
    cases w with
    | null => simpa [render] using h
    | _ => exact absurd (kind_eq h) (by simp [kind])
  | .bool a, w, r, s, _, _, h => by
    cases w with
    | bool b => cases a <;> cases b <;> simp_all [render]
    | _ => exact absurd (kind_eq h) (by simp [kind])
  | .int i, w, r, s, hr, hs, h => by
    cases w with
    | int j =>
      obtain ⟨hij,hrs⟩ := intText_inj hr hs h
      exact ⟨by rw [hij],hrs⟩
    | _ => exact absurd (kind_eq h) (by simp [kind])
  | .str a, w, r, s, _, _, h => by
    cases w with
    | str b =>
      obtain ⟨hab,hrs⟩ := quote_inj h
      exact ⟨by rw [hab],hrs⟩
    | _ => exact absurd (kind_eq h) (by simp [kind])
  | .arr [], w, r, s, _, _, h => by
    cases w with
    | arr ws =>
      cases ws with
      | nil => simpa [render] using h
      | cons w ws =>
        simp only [render,List.cons_append,List.nil_append,List.append_assoc,
          List.cons.injEq,true_and] at h
        exact absurd h.symm (render_ne_close w (by decide) _ _)
    | _ => exact absurd (kind_eq h) (by simp [kind])
  | .arr (v :: vs), w, r, s, _, _, h => by
    cases w with
    | arr ws =>
      cases ws with
      | nil =>
        simp only [render,List.cons_append,List.nil_append,List.append_assoc,
          List.cons.injEq,true_and] at h
        exact absurd h (render_ne_close v (by decide) _ _)
      | cons w ws =>
        simp only [render,List.cons_append,List.append_assoc,List.cons.injEq,true_and] at h
        obtain ⟨hvw,hrest⟩ := render_inj v w _ _ (renderItems_closed vs r)
          (renderItems_closed ws s) h
        obtain ⟨hvs,hrs⟩ := renderItems_inj vs ws r s hrest
        exact ⟨by rw [hvw,hvs],hrs⟩
    | _ => exact absurd (kind_eq h) (by simp [kind])
  | .obj [], w, r, s, _, _, h => by
    cases w with
    | obj fs =>
      rcases fs with _ | ⟨⟨l,w⟩,fs⟩
      · simpa [render] using h
      · simp [render,quote] at h
    | _ => exact absurd (kind_eq h) (by simp [kind])
  | .obj ((k,v) :: es), w, r, s, _, _, h => by
    cases w with
    | obj fs =>
      rcases fs with _ | ⟨⟨l,w⟩,fs⟩
      · simp [render,quote] at h
      · simp only [render,List.cons_append,List.append_assoc,List.cons.injEq,true_and] at h
        obtain ⟨hkl,hcolon⟩ := quote_inj h
        obtain ⟨hvw,hrest⟩ := render_inj v w _ _ (renderEntries_closed es r)
          (renderEntries_closed fs s) (List.cons.inj hcolon).2
        obtain ⟨hes,hrs⟩ := renderEntries_inj es fs r s hrest
        exact ⟨by rw [hkl,hvw,hes],hrs⟩
    | _ => exact absurd (kind_eq h) (by simp [kind])

theorem renderItems_inj : ∀ (vs ws : List Json) (r s : List Char),
    renderItems vs ++ r = renderItems ws ++ s → vs = ws ∧ r = s
  | [], [], r, s, h => by simpa [renderItems] using h
  | [], w :: ws, r, s, h => by simp [renderItems] at h
  | v :: vs, [], r, s, h => by simp [renderItems] at h
  | v :: vs, w :: ws, r, s, h => by
    simp only [renderItems,List.cons_append,List.append_assoc,List.cons.injEq,true_and] at h
    obtain ⟨hvw,hrest⟩ := render_inj v w _ _ (renderItems_closed vs r)
      (renderItems_closed ws s) h
    obtain ⟨hvs,hrs⟩ := renderItems_inj vs ws r s hrest
    exact ⟨by rw [hvw,hvs],hrs⟩

theorem renderEntries_inj : ∀ (es fs : List (String × Json)) (r s : List Char),
    renderEntries es ++ r = renderEntries fs ++ s → es = fs ∧ r = s
  | [], [], r, s, h => by simpa [renderEntries] using h
  | [], (l,w) :: fs, r, s, h => by simp [renderEntries] at h
  | (k,v) :: es, [], r, s, h => by simp [renderEntries] at h
  | (k,v) :: es, (l,w) :: fs, r, s, h => by
    simp only [renderEntries,List.cons_append,List.append_assoc,List.cons.injEq,true_and] at h
    obtain ⟨hkl,hcolon⟩ := quote_inj h
    obtain ⟨hvw,hrest⟩ := render_inj v w _ _ (renderEntries_closed es r)
      (renderEntries_closed fs s) (List.cons.inj hcolon).2
    obtain ⟨hes,hrs⟩ := renderEntries_inj es fs r s hrest
    exact ⟨by rw [hkl,hvw,hes],hrs⟩
end

theorem render_injective {v w : Json} (h : render v = render w) : v = w := by
  have hnil : Closed [] := by intro c hc; simp at hc
  exact (render_inj v w [] [] hnil hnil (by rw [h])).1

mutual
/-- The keys of every object are pairwise distinct, as the keys of a dict are. -/
def Distinct : Json → Prop
  | .arr vs => DistinctItems vs
  | .obj es => (es.map Prod.fst).Nodup ∧ DistinctEntries es
  | _ => True
def DistinctItems : List Json → Prop
  | [] => True
  | v :: vs => Distinct v ∧ DistinctItems vs
def DistinctEntries : List (String × Json) → Prop
  | [] => True
  | (_,v) :: es => Distinct v ∧ DistinctEntries es
end

theorem distinctItems_iff {vs : List Json} : DistinctItems vs ↔ ∀ v ∈ vs, Distinct v := by
  induction vs with
  | nil => simp [DistinctItems]
  | cons v vs ih => simp [DistinctItems,ih]

theorem distinctEntries_iff {es : List (String × Json)} :
    DistinctEntries es ↔ ∀ e ∈ es, Distinct e.2 := by
  induction es with
  | nil => simp [DistinctEntries]
  | cons e es ih => simp [DistinctEntries,ih]

/-- Equality up to the order of object entries, at every depth: the least congruence
that lets the entries of an object be permuted. -/
inductive SameValue : Json → Json → Prop
  | refl (v) : SameValue v v
  | symm {v w} : SameValue v w → SameValue w v
  | trans {u v w} : SameValue u v → SameValue v w → SameValue u w
  | item {v w} (before after) : SameValue v w →
      SameValue (.arr (before ++ v :: after)) (.arr (before ++ w :: after))
  | entry {v w} (before after) (k) : SameValue v w →
      SameValue (.obj (before ++ (k,v) :: after)) (.obj (before ++ (k,w) :: after))
  | order {es fs} : es.Perm fs → SameValue (.obj es) (.obj fs)

mutual
/-- Entries in key order at every depth, the order `sort_keys=True` writes them in. -/
def sortKeys : Json → Json
  | .arr vs => .arr (sortItems vs)
  | .obj es => .obj (sortedBy Prod.fst (sortEntries es))
  | .null => .null
  | .bool b => .bool b
  | .int i => .int i
  | .str s => .str s
def sortItems : List Json → List Json
  | [] => []
  | v :: vs => sortKeys v :: sortItems vs
def sortEntries : List (String × Json) → List (String × Json)
  | [] => []
  | (k,v) :: es => (k,sortKeys v) :: sortEntries es
end

theorem sortItems_eq_map (vs : List Json) : sortItems vs = vs.map sortKeys := by
  induction vs with
  | nil => rfl
  | cons v vs ih => simp [sortItems,ih]

theorem sortEntries_eq_map (es : List (String × Json)) :
    sortEntries es = es.map fun e => (e.1,sortKeys e.2) := by
  induction es with
  | nil => rfl
  | cons e es ih => simp [sortEntries,ih]

@[simp] theorem sortEntries_keys (es : List (String × Json)) :
    (sortEntries es).map Prod.fst = es.map Prod.fst := by
  simp [sortEntries_eq_map]

/- Replacing a value by its sorted form is one `item` or `entry` step per child; the
prefix already replaced is carried along in `before`. -/
mutual
theorem sameValue_sortKeys : ∀ v, SameValue v (sortKeys v)
  | .arr vs => sameValue_sortItems [] vs
  | .obj es =>
    (sameValue_sortEntries [] es).trans (.order (sortedBy_perm Prod.fst (sortEntries es)).symm)
  | .null => .refl _
  | .bool _ => .refl _
  | .int _ => .refl _
  | .str _ => .refl _
theorem sameValue_sortItems (before : List Json) :
    ∀ vs, SameValue (.arr (before ++ vs)) (.arr (before ++ sortItems vs))
  | [] => .refl _
  | v :: vs => by
    have hrest := sameValue_sortItems (before ++ [sortKeys v]) vs
    simp only [List.append_assoc,List.singleton_append] at hrest
    exact (SameValue.item before vs (sameValue_sortKeys v)).trans hrest
theorem sameValue_sortEntries (before : List (String × Json)) :
    ∀ es, SameValue (.obj (before ++ es)) (.obj (before ++ sortEntries es))
  | [] => .refl _
  | (k,v) :: es => by
    have hrest := sameValue_sortEntries (before ++ [(k,sortKeys v)]) es
    simp only [List.append_assoc,List.singleton_append] at hrest
    exact (SameValue.entry before es k (sameValue_sortKeys v)).trans hrest
end

theorem SameValue.distinct_iff {v w : Json} (h : SameValue v w) : Distinct v ↔ Distinct w := by
  induction h with
  | refl => rfl
  | symm _ ih => exact ih.symm
  | trans _ _ ih₁ ih₂ => exact ih₁.trans ih₂
  | item before after _ ih => simp [Distinct,distinctItems_iff,or_imp,forall_and,ih]
  | entry before after k _ ih =>
    simp only [Distinct,distinctEntries_iff,List.map_append,List.map_cons,List.mem_append,
      List.mem_cons,or_imp,forall_and,forall_eq,ih]
  | order h => simp only [Distinct,distinctEntries_iff,(h.map Prod.fst).nodup_iff,h.mem_iff]

theorem SameValue.sortKeys_eq {v w : Json} (h : SameValue v w) (hv : Distinct v) :
    sortKeys v = sortKeys w := by
  induction h with
  | refl => rfl
  | symm h ih => exact (ih (h.distinct_iff.mpr hv)).symm
  | trans h _ ih₁ ih₂ => exact (ih₁ hv).trans (ih₂ (h.distinct_iff.mp hv))
  | item before after _ ih =>
    have hchild := distinctItems_iff.mp hv _ (List.mem_append_right before List.mem_cons_self)
    simp [sortKeys,sortItems_eq_map,ih hchild]
  | entry before after k _ ih =>
    have hchild := distinctEntries_iff.mp hv.2 _
      (List.mem_append_right before List.mem_cons_self)
    simp [sortKeys,sortEntries_eq_map,ih hchild]
  | order h =>
    have hperm := h.map fun e : String × Json => (e.1,sortKeys e.2)
    rw [← sortEntries_eq_map,← sortEntries_eq_map] at hperm
    rw [sortKeys,sortKeys,sortedBy_eq_of_perm hperm (by rw [sortEntries_keys]; exact hv.1)]

theorem sortKeys_eq_iff {v w : Json} (hv : Distinct v) :
    sortKeys v = sortKeys w ↔ SameValue v w := by
  refine ⟨fun h => ?_,fun h => h.sortKeys_eq hv⟩
  exact (h ▸ sameValue_sortKeys v).trans (sameValue_sortKeys w).symm

def dumps (v : Json) : String := String.ofList (render (sortKeys v))

def encodeUtf8 (s : String) : List UInt8 := s.toList.flatMap String.utf8EncodeChar

theorem encodeUtf8_eq (s : String) : encodeUtf8 s = s.toUTF8.data.toList := by
  have h : (encodeUtf8 s).toByteArray = s.toUTF8 := String.utf8Encode_toList
  rw [← h,List.toList_data_toByteArray]

theorem encodeUtf8_injective {s t : String} (h : encodeUtf8 s = encodeUtf8 t) : s = t := by
  rw [encodeUtf8_eq,encodeUtf8_eq] at h
  exact String.toByteArray_inj.mp (ByteArray.ext (Array.toList_inj.mp h))

theorem dumps_injective {v w : Json} (h : dumps v = dumps w) : sortKeys v = sortKeys w :=
  render_injective (String.ofList_injective h)

/-- The bytes determine the value exactly up to the order of object entries. -/
theorem encode_dumps_eq_iff {v w : Json} (hv : Distinct v) :
    encodeUtf8 (dumps v) = encodeUtf8 (dumps w) ↔ SameValue v w := by
  rw [← sortKeys_eq_iff hv]
  exact ⟨fun h => dumps_injective (encodeUtf8_injective h),fun h => by rw [dumps,dumps,h]⟩

theorem eq_of_perm_of_keys {es fs : List (String × Json)} (h : es.Perm fs)
    (hkeys : es.map Prod.fst = fs.map Prod.fst) (hes : (es.map Prod.fst).Nodup) : es = fs := by
  refine List.ext_getElem h.length_eq fun i hi hj => ?_
  have hmem : es[i] ∈ fs := h.mem_iff.mp (List.getElem_mem hi)
  have hkey : es[i].1 = fs[i].1 := by
    have := congrArg (fun l => l[i]?) hkeys
    simpa [hi,hj] using this
  exact List.inj_on_of_nodup_map (hkeys ▸ hes) hmem (List.getElem_mem hj) hkey

/-- Two records with the same keys have one text exactly when they agree field by field. -/
theorem sortKeys_record {es fs : List (String × Json)}
    (hkeys : es.map Prod.fst = fs.map Prod.fst) (hes : (es.map Prod.fst).Nodup) :
    sortKeys (.obj es) = sortKeys (.obj fs) ↔ sortEntries es = sortEntries fs := by
  simp only [sortKeys,Json.obj.injEq]
  refine ⟨fun h => ?_,fun h => by rw [h]⟩
  have hperm : (sortEntries es).Perm (sortEntries fs) :=
    ((sortedBy_perm Prod.fst _).symm.trans (h ▸ List.Perm.refl _)).trans
      (sortedBy_perm Prod.fst _)
  exact eq_of_perm_of_keys hperm (by simpa using hkeys) (by simpa using hes)

end CanonicalJson
