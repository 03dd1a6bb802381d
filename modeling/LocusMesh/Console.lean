import Mathlib
import LocusMesh.Json

/-! The JSON text that the command line prints: `json.dumps` with its default separators, or
with an indentation of two, in ASCII. -/
namespace CanonicalJson

def unicodeEscape (n : ℕ) : List Char :=
  ['\\','u',Nat.digitChar (n / 4096 % 16),Nat.digitChar (n / 256 % 16),Nat.digitChar (n / 16 % 16),
    Nat.digitChar (n % 16)]

/-- The escapes of `ensure_ascii`; beyond the basic plane a character is a surrogate pair. -/
def asciiEscape (c : Char) : List Char :=
  if c = '"' then ['\\','"']
  else if c = '\\' then ['\\','\\']
  else if c = '\n' then ['\\','n']
  else if c = '\r' then ['\\','r']
  else if c = '\t' then ['\\','t']
  else if c = '\x08' then ['\\','b']
  else if c = '\x0c' then ['\\','f']
  else if 32 ≤ c.toNat ∧ c.toNat ≤ 126 then [c]
  else if c.toNat < 0x10000 then unicodeEscape c.toNat
  else unicodeEscape (0xd800 + (c.toNat - 0x10000) / 0x400) ++
    unicodeEscape (0xdc00 + (c.toNat - 0x10000) % 0x400)

def asciiQuote (s : String) : List Char := '"' :: (s.toList.flatMap asciiEscape ++ ['"'])

/-- What stands before an item at some depth, if items have lines of their own. -/
def newline (indent : Bool) (depth : ℕ) : List Char :=
  if indent then '\n' :: List.replicate (2 * depth) ' ' else []

def separator (indent : Bool) (depth : ℕ) : List Char :=
  if indent then ',' :: newline true depth else [',',' ']

mutual
def layout (indent : Bool) (depth : ℕ) : Json → List Char
  | .null => "null".toList
  | .bool b => (if b then "true" else "false").toList
  | .int i => intText i
  | .str s => asciiQuote s
  | .arr [] => ['[',']']
  | .arr (v :: vs) => '[' :: (newline indent (depth + 1) ++ layout indent (depth + 1) v ++
      layoutItems indent (depth + 1) vs ++ newline indent depth ++ [']'])
  | .obj [] => ['{','}']
  | .obj ((k,v) :: es) => '{' :: (newline indent (depth + 1) ++ asciiQuote k ++ [':',' '] ++
      layout indent (depth + 1) v ++ layoutEntries indent (depth + 1) es ++
      newline indent depth ++ ['}'])

def layoutItems (indent : Bool) (depth : ℕ) : List Json → List Char
  | [] => []
  | v :: vs => separator indent depth ++ layout indent depth v ++ layoutItems indent depth vs

def layoutEntries (indent : Bool) (depth : ℕ) : List (String × Json) → List Char
  | [] => []
  | (k,v) :: es => separator indent depth ++ asciiQuote k ++ [':',' '] ++ layout indent depth v ++
      layoutEntries indent depth es
end

/-- `json.dumps(v, sort_keys=True)`. -/
def jsonLine (v : Json) : String := String.ofList (layout false 0 (sortKeys v))

/-- `json.dumps(v, indent=2, sort_keys=True)`. -/
def jsonBlock (v : Json) : String := String.ofList (layout true 0 (sortKeys v))

def isPrintable (c : Char) : Bool := decide (' ' ≤ c) && decide (c ≤ '~')

def Printable (cs : List Char) : Prop := cs.all isPrintable = true

@[simp] theorem printable_nil : Printable [] := rfl

@[simp] theorem printable_cons {c : Char} {l : List Char} :
    Printable (c :: l) ↔ isPrintable c = true ∧ Printable l := by
  rw [Printable,Printable,List.all_cons,Bool.and_eq_true]

@[simp] theorem printable_append {l m : List Char} :
    Printable (l ++ m) ↔ Printable l ∧ Printable m := by
  rw [Printable,Printable,Printable,List.all_append,Bool.and_eq_true]

theorem digitChar_printable : ∀ d < 16, isPrintable (Nat.digitChar d) = true := by decide

@[simp] theorem unicodeEscape_printable (n : ℕ) : Printable (unicodeEscape n) := by
  have hdigit : ∀ m : ℕ, isPrintable (Nat.digitChar (m % 16)) = true :=
    fun m => digitChar_printable _ (Nat.mod_lt m (by decide))
  simp only [unicodeEscape,printable_cons,hdigit,printable_nil,and_true]
  decide

@[simp] theorem asciiEscape_printable (c : Char) : Printable (asciiEscape c) := by
  unfold asciiEscape
  split_ifs with h1 h2 h3 h4 h5 h6 h7 hascii hbasic
  · rfl
  · rfl
  · rfl
  · rfl
  · rfl
  · rfl
  · rfl
  · have hlow : ' ' ≤ c := hascii.1
    have hhigh : c ≤ '~' := hascii.2
    simp [isPrintable,hlow,hhigh]
  · exact unicodeEscape_printable _
  · exact printable_append.mpr ⟨unicodeEscape_printable _,unicodeEscape_printable _⟩

@[simp] theorem asciiQuote_printable (s : String) : Printable (asciiQuote s) := by
  have hbody : Printable (s.toList.flatMap asciiEscape) := by
    rw [Printable,List.all_eq_true]
    intro c hc
    obtain ⟨d,_,hc⟩ := List.mem_flatMap.mp hc
    exact List.all_eq_true.mp (asciiEscape_printable d) c hc
  rw [asciiQuote,printable_cons,printable_append]
  exact ⟨by decide,hbody,rfl⟩

@[simp] theorem intText_printable (i : ℤ) : Printable (intText i) := by
  have hdigits : ∀ n, Printable (Nat.toDigits 10 n) := by
    intro n
    rw [Printable,List.all_eq_true]
    intro c hc
    have hdigit := Nat.isDigit_of_mem_toDigits (by decide) (by decide) hc
    rw [Char.isDigit,Bool.and_eq_true,decide_eq_true_eq,decide_eq_true_eq] at hdigit
    have hlow : ' ' ≤ c := le_trans (by decide : ' ' ≤ '0') hdigit.1
    have hhigh : c ≤ '~' := le_trans hdigit.2 (by decide : '9' ≤ '~')
    simp [isPrintable,hlow,hhigh]
  cases i with
  | ofNat n => exact hdigits n
  | negSucc n => exact printable_cons.mpr ⟨by decide,hdigits (n + 1)⟩

@[simp] theorem newline_printable (depth : ℕ) : Printable (newline false depth) := rfl

@[simp] theorem separator_printable (depth : ℕ) : Printable (separator false depth) := rfl

mutual
theorem layout_printable (depth : ℕ) : ∀ v : Json, Printable (layout false depth v)
  | .null => by rw [layout]; rfl
  | .bool b => by cases b <;> (rw [layout]; rfl)
  | .int i => by rw [layout]; exact intText_printable i
  | .str s => by rw [layout]; exact asciiQuote_printable s
  | .arr [] => by rw [layout]; rfl
  | .arr (v :: vs) => by
    have hhead := layout_printable (depth + 1) v
    have htail := layoutItems_printable (depth + 1) vs
    rw [layout]
    simp [hhead,htail]
    decide
  | .obj [] => by rw [layout]; rfl
  | .obj ((k,v) :: es) => by
    have hhead := layout_printable (depth + 1) v
    have htail := layoutEntries_printable (depth + 1) es
    rw [layout]
    simp [hhead,htail]
    decide

theorem layoutItems_printable (depth : ℕ) :
    ∀ vs : List Json, Printable (layoutItems false depth vs)
  | [] => by rw [layoutItems]; exact printable_nil
  | v :: vs => by
    have hhead := layout_printable depth v
    have htail := layoutItems_printable depth vs
    rw [layoutItems]
    simp [hhead,htail]

theorem layoutEntries_printable (depth : ℕ) :
    ∀ es : List (String × Json), Printable (layoutEntries false depth es)
  | [] => by rw [layoutEntries]; exact printable_nil
  | (k,v) :: es => by
    have hhead := layout_printable depth v
    have htail := layoutEntries_printable depth es
    rw [layoutEntries]
    simp [hhead,htail]
    decide
end

/-- The text of a value is one line, in ASCII. -/
theorem jsonLine_printable (v : Json) : Printable (jsonLine v).toList := by
  rw [jsonLine,String.toList_ofList]
  exact layout_printable 0 (sortKeys v)

end CanonicalJson
