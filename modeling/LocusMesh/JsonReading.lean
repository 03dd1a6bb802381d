import Mathlib
import LocusMesh.Console
import LocusMesh.JsonText

/-! What the scanner reads in the text of a JSON value, whatever escapes and blanks the writer
of the text has chosen. -/
namespace PyJson

open PyText CanonicalJson

/-- The spellings of one character inside a string. -/
inductive CharSpelling (c : Char) : Text → Prop
  | plain (hquote : c ≠ '"') (hslash : c ≠ '\\') (hcontrol : ¬c.toNat < 32) : CharSpelling c [c]
  | short {e : Char} (hu : e ≠ 'u') (h : escapeOf e = some c) : CharSpelling c ['\\',e]
  | unit (h : c.toNat < 0x10000) : CharSpelling c (unicodeEscape c.toNat)
  | pair (h : ¬c.toNat < 0x10000) : CharSpelling c
      (unicodeEscape (0xd800 + (c.toNat - 0x10000) / 0x400) ++
        unicodeEscape (0xdc00 + (c.toNat - 0x10000) % 0x400))

theorem hexDigit_digitChar : ∀ d < 16, hexDigit (Nat.digitChar d) = some d := by decide

theorem scanString_unicodeEscape {n : ℕ} (hn : n < 0x10000) (start : ℕ) (high : Option ℕ)
    {r : Text} (hr : r ≠ []) : scanString start high .plain (unicodeEscape n ++ r) =
      prepend (settle high n).1 (scanString start (settle high n).2 .plain r) := by
  have hdigit : ∀ m : ℕ, hexDigit (Nat.digitChar (m % 16)) = some (m % 16) :=
    fun m => hexDigit_digitChar _ (Nat.mod_lt m (by decide))
  have hvalue : 16 * (16 * (16 * (n / 4096 % 16) + n / 256 % 16) + n / 16 % 16) + n % 16 = n := by
    omega
  simp [unicodeEscape,scanString,hdigit,hvalue,hr]

theorem toNat_not_surrogate (c : Char) : isHigh c.toNat = false ∧ isLow c.toNat = false := by
  have hvalid := c.valid
  simp only [isHigh,isLow,decide_eq_false_iff_not]
  rcases hvalid with h | h
  · have hlow : c.toNat < 0xd800 := h
    omega
  · have hhigh : 0xdfff < c.toNat := h.1
    omega

theorem toNat_lt (c : Char) : c.toNat < 0x110000 := by
  rcases c.valid with h | h
  · have hlow : c.toNat < 0xd800 := h
    omega
  · exact h.2

@[simp] theorem prepend_nil (x : Except Malformed (Str × Text)) : prepend [] x = x := by
  cases x <;> rfl

theorem scanString_pair {high low : ℕ} (hhigh : isHigh high = true) (hlow : isLow low = true)
    (start : ℕ) {r : Text} (hr : r ≠ []) :
    scanString start none .plain (unicodeEscape high ++ (unicodeEscape low ++ r)) =
      prepend [.scalar (joinSurrogates high low)] (scanString start none .plain r) := by
  have hbounds := of_decide_eq_true hhigh
  have hbounds' := of_decide_eq_true hlow
  rw [scanString_unicodeEscape (by omega) start none (List.append_ne_nil_of_right_ne_nil _ hr),
    scanString_unicodeEscape (by omega) start _ hr]
  simp [settle,hhigh,hlow]

theorem joinSurrogates_split {n : ℕ} (h : 0x10000 ≤ n) :
    joinSurrogates (0xd800 + (n - 0x10000) / 0x400) (0xdc00 + (n - 0x10000) % 0x400) =
      Char.ofNat n := by
  have hsum : 0x10000 + (0xd800 + (n - 0x10000) / 0x400 - 0xd800) * 0x400 +
      (0xdc00 + (n - 0x10000) % 0x400 - 0xdc00) = n := by
    rw [Nat.add_sub_cancel_left,Nat.add_sub_cancel_left]
    omega
  rw [joinSurrogates,hsum]

theorem scanString_char {c : Char} {t : Text} (h : CharSpelling c t) (start : ℕ) {r : Text}
    (hr : r ≠ []) : scanString start none .plain (t ++ r) =
      prepend [.scalar c] (scanString start none .plain r) := by
  cases h with
  | plain hquote hslash hcontrol => simp [scanString,hquote,hslash,hcontrol,flush]
  | short hu h => simp [scanString,hu,h,flush]
  | unit h =>
    obtain ⟨hhigh,hlow⟩ := toNat_not_surrogate c
    rw [scanString_unicodeEscape h start none hr]
    simp [settle,hhigh,codePoint,hlow]
  | pair h =>
    have hlt := toNat_lt c
    have hhigh : isHigh (0xd800 + (c.toNat - 0x10000) / 0x400) = true :=
      decide_eq_true (by omega)
    have hlow : isLow (0xdc00 + (c.toNat - 0x10000) % 0x400) = true := decide_eq_true (by omega)
    rw [List.append_assoc,scanString_pair hhigh hlow start hr,joinSurrogates_split (not_lt.mp h),
      Char.ofNat_toNat]

/-- A string is read back, however each of its characters is spelled. -/
theorem scanString_spelled {spell : Char → Text} (h : ∀ c, CharSpelling c (spell c))
    (start : ℕ) (s : List Char) (r : Text) :
    scanString start none .plain (s.flatMap spell ++ '"' :: r) = .ok (s.map .scalar,r) := by
  induction s with
  | nil => simp [scanString,flush]
  | cons c s ih =>
    rw [List.flatMap_cons,List.append_assoc,scanString_char (h c) start (by simp),ih]
    rfl

theorem escapeChar_spelling (c : Char) : CharSpelling c (escapeChar c) := by
  unfold escapeChar
  split_ifs with h1 h2 h3 h4 h5 h6 h7 h8
  · subst h1
    exact .short (e:= '"') (by decide) (by decide)
  · subst h2
    exact .short (e:= '\\') (by decide) (by decide)
  · subst h3
    exact .short (e:= 'n') (by decide) (by decide)
  · subst h4
    exact .short (e:= 'r') (by decide) (by decide)
  · subst h5
    exact .short (e:= 't') (by decide) (by decide)
  · subst h6
    exact .short (e:= 'b') (by decide) (by decide)
  · subst h7
    exact .short (e:= 'f') (by decide) (by decide)
  · have hunit := CharSpelling.unit (c:=c) (by omega)
    rw [unicodeEscape,show c.toNat / 4096 % 16 = 0 by omega,show c.toNat / 256 % 16 = 0 by omega,
      show c.toNat / 16 % 16 = c.toNat / 16 by omega] at hunit
    exact hunit
  · exact .plain h1 h2 h8

theorem asciiEscape_spelling (c : Char) : CharSpelling c (asciiEscape c) := by
  unfold asciiEscape
  split_ifs with h1 h2 h3 h4 h5 h6 h7 h8 h9
  · subst h1
    exact .short (e:= '"') (by decide) (by decide)
  · subst h2
    exact .short (e:= '\\') (by decide) (by decide)
  · subst h3
    exact .short (e:= 'n') (by decide) (by decide)
  · subst h4
    exact .short (e:= 'r') (by decide) (by decide)
  · subst h5
    exact .short (e:= 't') (by decide) (by decide)
  · subst h6
    exact .short (e:= 'b') (by decide) (by decide)
  · subst h7
    exact .short (e:= 'f') (by decide) (by decide)
  · exact .plain h1 h2 (by omega)
  · exact .unit h9
  · exact .pair h9

def Ends (r : Text) : Prop :=
  ∀ c ∈ r.head?, isDigit c = false ∧ c ≠ '.' ∧ c ≠ 'e' ∧ c ≠ 'E'

theorem toDigits_isDigit (n : ℕ) : ∀ c ∈ Nat.toDigits 10 n, isDigit c = true := by
  intro c hc
  have hdigit := Nat.isDigit_of_mem_toDigits (by decide) (by decide) hc
  rw [Char.isDigit,Bool.and_eq_true,decide_eq_true_eq,decide_eq_true_eq] at hdigit
  rw [isDigit,Bool.and_eq_true]
  exact ⟨decide_eq_true hdigit.1,decide_eq_true hdigit.2⟩

theorem toDigits_head_ne {n : ℕ} (h : n ≠ 0) : (Nat.toDigits 10 n).head? ≠ some '0' := by
  induction n using Nat.strong_induction_on with
  | _ n ih =>
    by_cases hlt : n < 10
    · rw [Nat.toDigits_of_lt_base hlt]
      interval_cases n <;> simp_all
    · rw [Nat.toDigits_of_base_le (by decide) (by omega),
        List.head?_append_of_ne_nil _ Nat.toDigits_ne_nil]
      exact ih (n / 10) (by omega) (by omega)

theorem span_digits {ds r : Text} (hds : ∀ c ∈ ds, isDigit c = true) (hr : Ends r) :
    (ds ++ r).span isDigit = (ds,r) := by
  have hstop : r.takeWhile isDigit = [] ∧ r.dropWhile isDigit = r := by
    cases r with
    | nil => exact ⟨rfl,rfl⟩
    | cons c r =>
      have hc := (hr c rfl).1
      simp [hc]
  rw [List.span_eq_takeWhile_dropWhile,List.takeWhile_append_of_pos hds,
    List.dropWhile_append_of_pos hds,hstop.1,hstop.2,List.append_nil]

theorem integerPart_toDigits (n : ℕ) {r : Text} (hr : Ends r) :
    integerPart (Nat.toDigits 10 n ++ r) = (Nat.toDigits 10 n,r) := by
  by_cases h : n = 0
  · subst h
    rfl
  · unfold integerPart
    split
    · rename_i s hs
      have hhead := congrArg List.head? hs
      rw [List.head?_append_of_ne_nil _ Nat.toDigits_ne_nil] at hhead
      exact absurd hhead (toDigits_head_ne h)
    · exact span_digits (toDigits_isDigit n) hr

theorem fractionPart_ends {r : Text} (hr : Ends r) : fractionPart r = ([],r) := by
  unfold fractionPart
  split
  · rename_i s
    exact absurd rfl (hr '.' rfl).2.1
  · rfl

theorem exponentPart_ends {r : Text} (hr : Ends r) : exponentPart r = ([],r) := by
  cases r with
  | nil => rfl
  | cons c r =>
    have hc := (hr c rfl).2.2
    simp [exponentPart,hc.1,hc.2]

theorem matchNumber_intText (i : ℤ) {r : Text} (hr : Ends r) :
    matchNumber (intText i ++ r) = some (intText i,[],[],r) := by
  cases i with
  | ofNat n =>
    have hhead : (Nat.toDigits 10 n ++ r).head? ≠ some '-' := by
      obtain ⟨c,cs,hn,hc⟩ := toDigits_head n
      rw [hn]
      intro hminus
      cases hminus
      exact absurd hc (by decide)
    rw [matchNumber,intText,if_neg hhead]
    simp only [integerPart_toDigits n hr,Nat.toDigits_ne_nil,if_false,fractionPart_ends hr,
      exponentPart_ends hr,List.nil_append]
  | negSucc n =>
    rw [matchNumber,intText,List.cons_append,List.head?_cons,if_pos rfl]
    simp only [List.drop_one,List.tail_cons,integerPart_toDigits (n + 1) hr,Nat.toDigits_ne_nil,
      if_false,fractionPart_ends hr,exponentPart_ends hr,List.singleton_append]

def Blank (ws : Text) : Prop := skipWs ws = []

theorem skipWs_append {ws : Text} (h : Blank ws) (r : Text) : skipWs (ws ++ r) = skipWs r := by
  rw [Blank,skipWs,List.dropWhile_eq_nil_iff] at h
  exact List.dropWhile_append_of_pos h

/-- How a writer spells characters, and which blanks it leaves: on a new line at some depth,
behind a comma, and behind a colon. -/
structure Style where
  char : Char → Text
  line : ℕ → Text
  gap : ℕ → Text
  colon : Text
  spelled : ∀ c, CharSpelling c (char c)
  blank_line : ∀ depth, Blank (line depth)
  blank_gap : ∀ depth, Blank (gap depth)
  blank_colon : Blank colon

namespace Style

variable (σ : Style)

def quote (s : String) : Text := '"' :: (s.toList.flatMap σ.char ++ ['"'])

def key (k : String) : Text := σ.quote k ++ ':' :: σ.colon

mutual
def write (depth : ℕ) : Json → Text
  | .null => "null".toList
  | .bool b => (if b then "true" else "false").toList
  | .int i => intText i
  | .str s => σ.quote s
  | .arr [] => ['[',']']
  | .arr (v :: vs) => '[' :: (σ.line (depth + 1) ++ (write (depth + 1) v ++
      (writeItems (depth + 1) vs ++ (σ.line depth ++ [']']))))
  | .obj [] => ['{','}']
  | .obj ((k,v) :: es) => '{' :: (σ.line (depth + 1) ++ (σ.key k ++ (write (depth + 1) v ++
      (writeEntries (depth + 1) es ++ (σ.line depth ++ ['}'])))))
def writeItems (depth : ℕ) : List Json → Text
  | [] => []
  | v :: vs => ',' :: (σ.gap depth ++ (write depth v ++ writeItems depth vs))
def writeEntries (depth : ℕ) : List (String × Json) → Text
  | [] => []
  | (k,v) :: es => ',' :: (σ.gap depth ++ (σ.key k ++ (write depth v ++ writeEntries depth es)))
end

end Style

section Separated

variable {ε β γ : Type} {item : Text → Except (ScanError ε) (β × Text)} {close : Char}
  {missing : String} {gap line : Text} {write : γ → Text} {value : γ → β} (fits : γ → Prop)
  [DecidablePred fits] {e : ScanError ε}

def Solid (t : Text) : Prop := ∀ r, skipWs (t ++ r) = t ++ r

/-- What stands behind an item: more items behind their commas, then the closing character. -/
def behind (close : Char) (gap line : Text) (write : γ → Text) (rest : List γ) (r : Text) : Text :=
  rest.flatMap (fun a => ',' :: (gap ++ write a)) ++ (line ++ close :: r)

theorem behind_cons (b : γ) (rest : List γ) (r : Text) : behind close gap line write (b :: rest) r =
    ',' :: (gap ++ (write b ++ behind close gap line write rest r)) := by
  simp [behind]

theorem skipWs_behind (hline : Blank line) (hclose : Solid [close]) (rest : List γ) (r : Text) :
    skipWs (behind close gap line write rest r) =
      match rest with
      | [] => close :: r
      | b :: rest => ',' :: (gap ++ (write b ++ behind close gap line write rest r)) := by
  cases rest with
  | nil =>
    rw [behind,List.flatMap_nil,List.nil_append,skipWs_append hline]
    exact hclose r
  | cons b rest =>
    rw [behind_cons]
    rfl

/-- Where each item is read, or fails in one way, so is the list of all. -/
theorem scanSeparated_written (hgap : Blank gap) (hline : Blank line) (hclose : Solid [close])
    (hcomma : ',' ≠ close) {a : γ} {rest : List γ} (hsolid : ∀ b ∈ a :: rest, Solid (write b))
    (hitem : ∀ b ∈ a :: rest, ∀ more r, item (write b ++ behind close gap line write more r) =
      if fits b then .ok (value b,skipWs (behind close gap line write more r)) else .error e)
    {fuel : ℕ} (hfuel : rest.length < fuel) (items : List β) (r : Text) :
    scanSeparated item close missing fuel items (write a ++ behind close gap line write rest r) =
      if ∀ b ∈ a :: rest, fits b then .ok (items ++ (a :: rest).map value,r) else .error e := by
  induction rest generalizing a fuel items with
  | nil =>
    obtain ⟨fuel,rfl⟩ := Nat.exists_eq_succ_of_ne_zero (Nat.ne_zero_of_lt hfuel)
    rw [scanSeparated,hitem a List.mem_cons_self,skipWs_behind hline hclose]
    by_cases hfits : fits a <;> simp [hfits]
  | cons b rest ih =>
    obtain ⟨fuel,rfl⟩ := Nat.exists_eq_succ_of_ne_zero (Nat.ne_zero_of_lt hfuel)
    have hrest := ih (fun c hc => hsolid c (List.mem_cons_of_mem a hc))
      (fun c hc => hitem c (List.mem_cons_of_mem a hc)) (Nat.lt_of_succ_lt_succ hfuel)
      (items ++ [value a])
    rw [scanSeparated,hitem a List.mem_cons_self,skipWs_behind hline hclose]
    by_cases hfits : fits a
    · rw [if_pos hfits]
      simp only [if_neg hcomma,if_true]
      rw [skipWs_append hgap,hsolid b (by simp),hrest]
      simp [hfits]
    · simp [hfits]

theorem length_lt_behind (close : Char) (gap line : Text) (write : γ → Text) (rest : List γ)
    (r : Text) : rest.length < (behind close gap line write rest r).length := by
  induction rest with
  | nil => simp [behind]
  | cons b rest ih =>
    rw [behind_cons]
    simp only [List.length_cons,List.length_append]
    omega

end Separated

mutual
def nesting : Json → ℕ
  | .arr vs => nestingItems vs + 1
  | .obj es => nestingEntries es + 1
  | .null => 0
  | .bool _ => 0
  | .int _ => 0
  | .str _ => 0
def nestingItems : List Json → ℕ
  | [] => 0
  | v :: vs => max (nesting v) (nestingItems vs)
def nestingEntries : List (String × Json) → ℕ
  | [] => 0
  | (_,v) :: es => max (nesting v) (nestingEntries es)
end

theorem nestingItems_le {vs : List Json} {n : ℕ} :
    nestingItems vs ≤ n ↔ ∀ v ∈ vs, nesting v ≤ n := by
  induction vs with
  | nil => simp [nestingItems]
  | cons v vs ih => simp [nestingItems,ih]

theorem nestingEntries_le {es : List (String × Json)} {n : ℕ} :
    nestingEntries es ≤ n ↔ ∀ e ∈ es, nesting e.2 ≤ n := by
  induction es with
  | nil => simp [nestingEntries]
  | cons e es ih => simp [nestingEntries,ih]

mutual
/-- No integer has more digits than `int` converts. -/
def IntsFit : Json → Prop
  | .int i => ((intText i).filter isDigit).length ≤ maxDigits
  | .arr vs => IntsFitItems vs
  | .obj es => IntsFitEntries es
  | .null => True
  | .bool _ => True
  | .str _ => True
def IntsFitItems : List Json → Prop
  | [] => True
  | v :: vs => IntsFit v ∧ IntsFitItems vs
def IntsFitEntries : List (String × Json) → Prop
  | [] => True
  | (_,v) :: es => IntsFit v ∧ IntsFitEntries es
end

theorem intsFitItems_iff {vs : List Json} : IntsFitItems vs ↔ ∀ v ∈ vs, IntsFit v := by
  induction vs with
  | nil => simp [IntsFitItems]
  | cons v vs ih => simp [IntsFitItems,ih]

theorem intsFitEntries_iff {es : List (String × Json)} :
    IntsFitEntries es ↔ ∀ e ∈ es, IntsFit e.2 := by
  induction es with
  | nil => simp [IntsFitEntries]
  | cons e es ih => simp [IntsFitEntries,ih]

section Induction

variable {P : Json → Prop}

/-- Induction with a hypothesis for every item and every entry. -/
theorem json_induction (null : P .null) (bool : ∀ b, P (.bool b)) (int : ∀ i, P (.int i))
    (str : ∀ s, P (.str s)) (arr : ∀ vs, (∀ v ∈ vs, P v) → P (.arr vs))
    (obj : ∀ es, (∀ e ∈ es, P e.2) → P (.obj es)) : ∀ v, P v := by
  refine @Json.rec P (fun vs => ∀ v ∈ vs, P v) (fun es => ∀ e ∈ es, P e.2) (fun e => P e.2)
    null bool int str arr obj ?_ ?_ ?_ ?_ fun _ _ hv => hv
  · exact fun v hv => absurd hv List.not_mem_nil
  · exact fun v vs hv hvs => List.forall_mem_cons.mpr ⟨hv,hvs⟩
  · exact fun e he => absurd he List.not_mem_nil
  · exact fun e es he hes => List.forall_mem_cons.mpr ⟨he,hes⟩

end Induction

/-- A builder that builds `value v` of the parts of `v`. -/
structure Reads {ε α : Type} (b : Builder ε α) (value : Json → α) : Prop where
  null : b.leaf .null = value .null
  bool (x : Bool) : b.leaf (.bool x) = value (.bool x)
  int (i : ℤ) : b.leaf (.number (intText i)) = value (.int i)
  str (s : String) : b.leaf (.str (PyJson.str s)) = value (.str s)
  arr (vs : List Json) : b.list (vs.map value) = value (.arr vs)
  obj (es : List (String × Json)) (h : (es.map Prod.fst).Nodup) :
    b.dict (es.map fun e => (PyJson.str e.1,value e.2)) = .ok (value (.obj es))

namespace Style

variable (σ : Style)

theorem writeItems_eq (depth : ℕ) (vs : List Json) : σ.writeItems depth vs =
    vs.flatMap fun v => ',' :: (σ.gap depth ++ σ.write depth v) := by
  induction vs with
  | nil => rfl
  | cons v vs ih => simp [writeItems,ih]

def writeEntry (depth : ℕ) (e : String × Json) : Text := σ.key e.1 ++ σ.write depth e.2

theorem writeEntries_eq (depth : ℕ) (es : List (String × Json)) : σ.writeEntries depth es =
    es.flatMap fun e => ',' :: (σ.gap depth ++ σ.writeEntry depth e) := by
  induction es with
  | nil => rfl
  | cons e es ih => simp [writeEntries,writeEntry,ih]

theorem write_head (depth : ℕ) (v : Json) :
    ∃ c cs, σ.write depth v = c :: cs ∧ kindOf c = some (kind v) := by
  cases v with
  | null => exact ⟨_,_,rfl,by decide⟩
  | bool b => cases b <;> exact ⟨_,_,rfl,by decide⟩
  | int i =>
    have hhead := render_head (.int i)
    rw [render] at hhead
    rw [write]
    exact hhead
  | str s => exact ⟨_,_,by rw [write,quote],rfl⟩
  | arr vs => cases vs <;> exact ⟨'[',_,by rw [write],rfl⟩
  | obj es => rcases es with _ | ⟨⟨k,v⟩,es⟩ <;> exact ⟨'{',_,by rw [write],rfl⟩

end Style

theorem solid_of_kind {c : Char} {k : Kind} (h : kindOf c = some k) (cs : Text) :
    Solid (c :: cs) := by
  have hblank : ∀ d ∈ [' ','\t','\n','\r'], kindOf d = none := by
    intro d hd
    simp only [List.mem_cons,List.not_mem_nil,or_false] at hd
    rcases hd with rfl | rfl | rfl | rfl <;> rfl
  intro r
  have hc : ∀ d ∈ [' ','\t','\n','\r'], c ≠ d := by
    intro d hd heq
    rw [heq,hblank d hd] at h
    cases h
  simp only [List.mem_cons,List.not_mem_nil,or_false,forall_eq_or_imp,forall_eq] at hc
  simp [skipWs,hc]

theorem Style.write_solid (σ : Style) (depth : ℕ) (v : Json) : Solid (σ.write depth v) := by
  obtain ⟨c,cs,hwrite,hkind⟩ := σ.write_head depth v
  rw [hwrite]
  exact solid_of_kind hkind cs

theorem ends_cons {c : Char} (h : isDigit c = false ∧ c ≠ '.' ∧ c ≠ 'e' ∧ c ≠ 'E') (r : Text) :
    Ends (c :: r) := by
  intro d hd
  cases hd
  exact h

theorem ends_of_blank {ws r : Text} (hws : Blank ws) (hr : Ends r) : Ends (ws ++ r) := by
  cases ws with
  | nil => exact hr
  | cons c ws =>
    rw [Blank,skipWs,List.dropWhile_eq_nil_iff] at hws
    have hc := hws c List.mem_cons_self
    simp only [Bool.or_eq_true,beq_iff_eq] at hc
    apply ends_cons
    rcases hc with ((rfl | rfl) | rfl) | rfl <;> decide

theorem ends_behind {γ : Type} {close : Char} {gap line : Text} {write : γ → Text}
    (hline : Blank line) (hclose : Ends [close]) (rest : List γ) (r : Text) :
    Ends (behind close gap line write rest r) := by
  cases rest with
  | nil =>
    apply ends_of_blank hline
    intro c hc
    exact hclose c hc
  | cons b rest =>
    rw [behind_cons]
    exact ends_cons (by decide) _

section Scan

variable {ε α : Type} {b : Builder ε α} {value : Json → α}

theorem word_eq_none {w : String} {a : Leaf} {c d : Char} {cs r : Text} (hw : w.toList = c :: cs)
    (h : d ≠ c) : word w a (d :: r) = none := by
  rw [word,hw,List.isPrefixOf_cons_cons,beq_eq_false_iff_ne.mpr (Ne.symm h)]
  rfl

theorem constant_intText (i : ℤ) (r : Text) : constant (intText i ++ r) = none := by
  have hdigits : ∀ n s, ∀ entry ∈ constants, word entry.1 entry.2 (Nat.toDigits 10 n ++ s) = none := by
    intro n s entry hentry
    obtain ⟨c,cs,hn,hc⟩ := toDigits_head n
    have hne : ∀ d, d.isDigit = false → c ≠ d := by
      rintro d hd rfl
      exact Bool.false_ne_true (hd.symm.trans hc)
    rw [hn]
    simp only [constants,List.mem_cons,List.not_mem_nil,or_false] at hentry
    rcases hentry with rfl | rfl | rfl | rfl | rfl | rfl <;>
      exact word_eq_none rfl (hne _ (by decide))
  rw [constant,List.findSome?_eq_none_iff]
  cases i with
  | ofNat n => exact hdigits n r
  | negSucc n =>
    intro entry hentry
    obtain ⟨c,cs,hn,hc⟩ := toDigits_head (n + 1)
    have hI : c ≠ 'I' := by
      rintro rfl
      exact absurd hc (by decide)
    simp only [constants,List.mem_cons,List.not_mem_nil,or_false] at hentry
    rcases hentry with rfl | rfl | rfl | rfl | rfl | rfl
    · exact word_eq_none rfl (by decide)
    · exact word_eq_none rfl (by decide)
    · exact word_eq_none rfl (by decide)
    · exact word_eq_none rfl (by decide)
    · exact word_eq_none rfl (by decide)
    · simp [word,intText,hn,hI.symm]

theorem scanLeaf_int {i : ℤ} (h : ((intText i).filter isDigit).length ≤ maxDigits) {r : Text}
    (hr : Ends r) : scanLeaf (intText i ++ r) = .ok (.number (intText i),r) := by
  have hnumber : scanNumber (intText i ++ r) = .ok (.number (intText i),r) := by
    rw [scanNumber,matchNumber_intText i hr]
    simp [not_lt.mpr h]
  unfold scanLeaf
  split
  · rename_i s hs
    obtain ⟨c,cs,hi,hkind⟩ := render_head (.int i)
    rw [render] at hi
    rw [hi] at hs
    cases hs
    cases hkind
  · rw [constant_intText]
    exact hnumber

theorem scanScalar_write (hb : Reads b value) (σ : Style) (depth : ℕ) {v : Json}
    (hv : kind v ≠ .arr ∧ kind v ≠ .obj) (hfit : IntsFit v) {r : Text} (hr : Ends r) :
    scanScalar b (σ.write depth v ++ r) = .ok (value v,r) := by
  cases v with
  | null =>
    have hleaf : scanLeaf (σ.write depth .null ++ r) = .ok (.null,r) := rfl
    rw [scanScalar,hleaf,← hb.null]
  | bool x =>
    have hleaf : scanLeaf (σ.write depth (.bool x) ++ r) = .ok (.bool x,r) := by
      cases x <;> rfl
    rw [scanScalar,hleaf,← hb.bool]
  | int i =>
    have hleaf : scanLeaf (σ.write depth (.int i) ++ r) = .ok (.number (intText i),r) := by
      rw [Style.write]
      rw [IntsFit] at hfit
      exact scanLeaf_int hfit hr
    rw [scanScalar,hleaf,← hb.int]
  | str s =>
    have hleaf : scanLeaf (σ.write depth (.str s) ++ r) = .ok (.str (str s),r) := by
      rw [Style.write,Style.quote,List.cons_append,List.append_assoc,scanLeaf,List.singleton_append,
        scanString_spelled σ.spelled]
      rfl
    rw [scanScalar,hleaf,← hb.str]
  | arr vs => exact absurd rfl hv.1
  | obj es => exact absurd rfl hv.2

/-- What the scan of a value yields where `limit` containers may be entered. -/
def within (limit : ℕ) (value : Json → α) (v : Json) (r : Text) : Except (ScanError ε) (α × Text) :=
  if nesting v ≤ limit then .ok (value v,r) else .error .recursion

theorem scanOnce_scalar (hb : Reads b value) (σ : Style) (depth : ℕ) {v : Json}
    (hv : kind v ≠ .arr ∧ kind v ≠ .obj) (hfit : IntsFit v) (limit : ℕ) {r : Text} (hr : Ends r) :
    scanOnce b limit (σ.write depth v ++ r) = within limit value v r := by
  obtain ⟨c,cs,hwrite,hkind⟩ := σ.write_head depth v
  have hflat : nesting v ≤ limit := by
    cases v with
    | arr vs => exact absurd rfl hv.1
    | obj es => exact absurd rfl hv.2
    | _ => exact Nat.zero_le limit
  rw [within,if_pos hflat]
  have hbrace : (σ.write depth v ++ r).head? ≠ some '{' := by
    rw [hwrite]
    intro h
    cases h
    exact hv.2 (Option.some.inj hkind).symm
  have hbracket : (σ.write depth v ++ r).head? ≠ some '[' := by
    rw [hwrite]
    intro h
    cases h
    exact hv.1 (Option.some.inj hkind).symm
  cases limit with
  | zero => rw [scanOnce,if_neg (by tauto),scanScalar_write hb σ depth hv hfit hr]
  | succ limit =>
    rw [scanOnce,if_neg hbrace,if_neg hbracket,scanScalar_write hb σ depth hv hfit hr]

theorem scanElement_write {σ : Style} {limit depth : ℕ} {v : Json}
    (h : ∀ r, Ends r → scanOnce b limit (σ.write depth v ++ r) = within limit value v r)
    {r : Text} (hr : Ends r) : scanElement (scanOnce b limit) (σ.write depth v ++ r) =
      if nesting v ≤ limit then .ok (value v,skipWs r) else .error .recursion := by
  rw [scanElement,h r hr,within]
  split_ifs <;> rfl

theorem scanMember_write {σ : Style} {limit depth : ℕ} {e : String × Json}
    (h : ∀ r, Ends r → scanOnce b limit (σ.write depth e.2 ++ r) = within limit value e.2 r)
    {r : Text} (hr : Ends r) : scanMember (scanOnce b limit) (σ.writeEntry depth e ++ r) =
      if nesting e.2 ≤ limit then .ok ((str e.1,value e.2),skipWs r) else .error .recursion := by
  have hkey : σ.writeEntry depth e ++ r = '"' :: (e.1.toList.flatMap σ.char ++ '"' ::
      (':' :: (σ.colon ++ (σ.write depth e.2 ++ r)))) := by
    simp [Style.writeEntry,Style.key,Style.quote]
  have hcolon : skipWs (':' :: (σ.colon ++ (σ.write depth e.2 ++ r))) =
      ':' :: (σ.colon ++ (σ.write depth e.2 ++ r)) := rfl
  rw [hkey,scanMember,scanString_spelled σ.spelled]
  simp only [decoded,Except.mapError,hcolon,List.head?_cons,if_true,List.tail_cons]
  rw [skipWs_append σ.blank_colon,σ.write_solid depth e.2,h r hr,within]
  split_ifs <;> rfl

theorem scanArray_write {σ : Style} {limit depth : ℕ} {v : Json} {vs : List Json}
    (h : ∀ w ∈ v :: vs, ∀ r, Ends r →
      scanOnce b limit (σ.write (depth + 1) w ++ r) = within limit value w r) (r : Text) :
    scanArray (scanOnce b limit) b (σ.line (depth + 1) ++ (σ.write (depth + 1) v ++
        behind ']' (σ.gap (depth + 1)) (σ.line depth) (σ.write (depth + 1)) vs r)) =
      if ∀ w ∈ v :: vs, nesting w ≤ limit then .ok (b.list ((v :: vs).map value),r)
      else .error .recursion := by
  have hsolid := σ.write_solid (depth + 1) v
  obtain ⟨c,cs,hwrite,hkind⟩ := σ.write_head (depth + 1) v
  rw [scanArray,skipWs_append (σ.blank_line _),hsolid]
  have hclose : (σ.write (depth + 1) v ++ behind ']' (σ.gap (depth + 1)) (σ.line depth)
      (σ.write (depth + 1)) vs r).head? ≠ some ']' := by
    rw [hwrite]
    intro hhead
    cases hhead
    cases hkind
  rw [if_neg hclose,scanSeparated_written (fun w => nesting w ≤ limit) (σ.blank_gap _)
    (σ.blank_line _) (fun r => rfl) (by decide) (fun w _ => σ.write_solid _ w)
    (fun w hw more r => scanElement_write (h w hw)
      (ends_behind (σ.blank_line _) (ends_cons (by decide) _) more r))]
  · split_ifs <;> rfl
  · have hlength := length_lt_behind ']' (σ.gap (depth + 1)) (σ.line depth) (σ.write (depth + 1)) vs r
    rw [List.length_append]
    omega

theorem scanObject_write {σ : Style} {limit depth : ℕ} {e : String × Json}
    {es : List (String × Json)} (h : ∀ f ∈ e :: es, ∀ r, Ends r →
      scanOnce b limit (σ.write (depth + 1) f.2 ++ r) = within limit value f.2 r) (r : Text) :
    scanObject (scanOnce b limit) b (σ.line (depth + 1) ++ (σ.writeEntry (depth + 1) e ++
        behind '}' (σ.gap (depth + 1)) (σ.line depth) (σ.writeEntry (depth + 1)) es r)) =
      if ∀ f ∈ e :: es, nesting f.2 ≤ limit then
        hooked b ((e :: es).map fun f => (str f.1,value f.2)) r
      else .error .recursion := by
  have hsolid : ∀ f, Solid (σ.writeEntry (depth + 1) f) := fun f r => rfl
  have hclose : (σ.writeEntry (depth + 1) e ++ behind '}' (σ.gap (depth + 1)) (σ.line depth)
      (σ.writeEntry (depth + 1)) es r).head? ≠ some '}' := by
    intro hhead
    cases hhead
  rw [scanObject,skipWs_append (σ.blank_line _),hsolid,if_neg hclose,
    scanSeparated_written (fun f => nesting f.2 ≤ limit) (σ.blank_gap _) (σ.blank_line _)
    (fun r => rfl) (by decide) (fun f _ => hsolid f) (fun f hf more r => scanMember_write (h f hf)
      (ends_behind (σ.blank_line _) (ends_cons (by decide) _) more r))]
  · split_ifs <;> rfl
  · have hlength := length_lt_behind '}' (σ.gap (depth + 1)) (σ.line depth)
      (σ.writeEntry (depth + 1)) es r
    rw [List.length_append]
    omega

/-- One step of the reading: what holds of the items of an array holds of the array. -/
theorem scanOnce_arr (hb : Reads b value) {σ : Style} {depth : ℕ} {vs : List Json}
    (h : ∀ v ∈ vs, ∀ limit r, Ends r →
      scanOnce b limit (σ.write (depth + 1) v ++ r) = within limit value v r) (limit : ℕ) (r : Text) :
    scanOnce b limit (σ.write depth (.arr vs) ++ r) = within limit value (.arr vs) r := by
  cases limit with
  | zero => cases vs <;> rfl
  | succ limit =>
    cases vs with
    | nil =>
      rw [within,if_pos (by simp [nesting,nestingItems]),← hb.arr]
      rfl
    | cons v vs =>
      have htext : σ.write depth (.arr (v :: vs)) ++ r = '[' :: (σ.line (depth + 1) ++
          (σ.write (depth + 1) v ++ behind ']' (σ.gap (depth + 1)) (σ.line depth)
            (σ.write (depth + 1)) vs r)) := by
        simp [Style.write,Style.writeItems_eq,behind]
      rw [htext,scanOnce,if_neg (by simp),List.head?_cons,if_pos rfl,List.tail_cons,
        scanArray_write fun w hw => h w hw limit,within,hb.arr,nesting]
      simp only [Nat.succ_le_succ_iff,nestingItems_le]

theorem scanOnce_obj (hb : Reads b value) {σ : Style} {depth : ℕ} {es : List (String × Json)}
    (hkeys : (es.map Prod.fst).Nodup) (h : ∀ e ∈ es, ∀ limit r, Ends r →
      scanOnce b limit (σ.write (depth + 1) e.2 ++ r) = within limit value e.2 r)
    (limit : ℕ) (r : Text) :
    scanOnce b limit (σ.write depth (.obj es) ++ r) = within limit value (.obj es) r := by
  have hdict : ∀ r, hooked b (es.map fun e => (str e.1,value e.2)) r = .ok (value (.obj es),r) := by
    intro r
    rw [hooked,hb.obj es hkeys]
  cases limit with
  | zero => rcases es with _ | ⟨⟨k,v⟩,es⟩ <;> rfl
  | succ limit =>
    cases es with
    | nil =>
      rw [within,if_pos (by simp [nesting,nestingEntries]),← hdict r]
      rfl
    | cons e es =>
      have htext : σ.write depth (.obj (e :: es)) ++ r = '{' :: (σ.line (depth + 1) ++
          (σ.writeEntry (depth + 1) e ++ behind '}' (σ.gap (depth + 1)) (σ.line depth)
            (σ.writeEntry (depth + 1)) es r)) := by
        simp [Style.write,Style.writeEntries_eq,Style.writeEntry,behind]
      rw [htext,scanOnce,List.head?_cons,if_pos rfl,List.tail_cons,
        scanObject_write fun f hf => h f hf limit,within,hdict,nesting]
      simp only [Nat.succ_le_succ_iff,nestingEntries_le]

/-- A written value is read as what it stands for exactly where it is not nested too deep. -/
theorem scanOnce_write (hb : Reads b value) (σ : Style) (v : Json) :
    ∀ (depth limit : ℕ) (r : Text), Distinct v → IntsFit v → Ends r →
      scanOnce b limit (σ.write depth v ++ r) = within limit value v r := by
  induction v using json_induction with
  | null =>
    intro depth limit r _ hfit hr
    exact scanOnce_scalar hb σ depth (by simp [kind]) hfit limit hr
  | bool x =>
    intro depth limit r _ hfit hr
    exact scanOnce_scalar hb σ depth (by simp [kind]) hfit limit hr
  | int i =>
    intro depth limit r _ hfit hr
    exact scanOnce_scalar hb σ depth (by simp [kind]) hfit limit hr
  | str s =>
    intro depth limit r _ hfit hr
    exact scanOnce_scalar hb σ depth (by simp [kind]) hfit limit hr
  | arr vs ih =>
    intro depth limit r hdistinct hfit _
    rw [Distinct,distinctItems_iff] at hdistinct
    rw [IntsFit,intsFitItems_iff] at hfit
    exact scanOnce_arr hb (fun v hv limit r hr =>
      ih v hv (depth + 1) limit r (hdistinct v hv) (hfit v hv) hr) limit r
  | obj es ih =>
    intro depth limit r hdistinct hfit _
    rw [Distinct,distinctEntries_iff] at hdistinct
    rw [IntsFit,intsFitEntries_iff] at hfit
    exact scanOnce_obj hb hdistinct.1 (fun e he limit r hr =>
      ih e he (depth + 1) limit r (hdistinct.2 e he) (hfit e he) hr) limit r

theorem loads_write (hb : Reads b value) (σ : Style) {v : Json} (hdistinct : Distinct v)
    (hfit : IntsFit v) (limit : ℕ) :
    loads b limit (σ.write 0 v) =
      if nesting v ≤ limit then .ok (value v) else .error .recursion := by
  have hscan := scanOnce_write hb σ v 0 limit [] hdistinct hfit (by simp [Ends])
  have hsolid := σ.write_solid 0 v []
  have hbom : (σ.write 0 v).head? ≠ some '\uFEFF' := by
    obtain ⟨c,cs,hwrite,hkind⟩ := σ.write_head 0 v
    rw [hwrite]
    intro h
    cases h
    cases hkind
  rw [List.append_nil] at hscan hsolid
  rw [loads,if_neg hbom,hsolid,hscan,within]
  split_ifs <;> rfl

end Scan

end PyJson
