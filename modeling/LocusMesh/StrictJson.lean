import Mathlib
import LocusMesh.JsonText

/-! The strict parsing of JSON that the input loader and the status observer share: every
object goes through the hook that rejects duplicate keys. -/
namespace LocusMesh

open PyText PyJson

inductive Value
  | leaf (a : Leaf)
  | list (items : List Value)
  | dict (entries : List (Str × Value))

/-- The text as it is written: every pair of every object is kept. -/
def source : Builder Empty Value := ⟨.leaf,.list,fun pairs => .ok (.dict pairs)⟩

/-- Keys are equal where their code points are. -/
local instance str_lawful : LawfulBEq Str := inferInstance

/-- `_reject_duplicate_keys`: the pairs as a dict, or the first key that comes again. -/
def rejectDuplicateKeys {β : Type} (result : List (Str × β)) :
    List (Str × β) → Except Str (List (Str × β))
  | [] => .ok result
  | (key,value) :: pairs =>
    if key ∈ result.map Prod.fst then .error key else rejectDuplicateKeys (result ++ [(key,value)]) pairs

def strict : Builder Str Value := ⟨.leaf,.list,fun pairs => .dict <$> rejectDuplicateKeys [] pairs⟩

/-- No dict at any depth has two entries of one key. -/
inductive UniqueKeys : Value → Prop
  | leaf (a : Leaf) : UniqueKeys (.leaf a)
  | list {items : List Value} (h : ∀ v ∈ items, UniqueKeys v) : UniqueKeys (.list items)
  | dict {entries : List (Str × Value)} (hkeys : (entries.map Prod.fst).Nodup)
    (h : ∀ e ∈ entries, UniqueKeys e.2) : UniqueKeys (.dict entries)

theorem rejectDuplicateKeys_ok {β : Type} {result pairs out : List (Str × β)}
    (hresult : (result.map Prod.fst).Nodup) (h : rejectDuplicateKeys result pairs = .ok out) :
    out = result ++ pairs ∧ (out.map Prod.fst).Nodup := by
  induction pairs generalizing result with
  | nil =>
    rw [rejectDuplicateKeys,Except.ok.injEq] at h
    rw [← h]
    exact ⟨(List.append_nil result).symm,hresult⟩
  | cons pair pairs ih =>
    obtain ⟨key,value⟩ := pair
    rw [rejectDuplicateKeys] at h
    split_ifs at h with hmem
    have hnodup : ((result ++ [(key,value)]).map Prod.fst).Nodup := by
      rw [List.map_append,List.nodup_append]
      refine ⟨hresult,List.nodup_singleton _,fun k hk k' hk' => ?_⟩
      rw [List.map_singleton,List.mem_singleton] at hk'
      rintro rfl
      rw [hk'] at hk
      exact hmem hk
    obtain ⟨hout,hkeys⟩ := ih hnodup h
    exact ⟨by rw [hout,List.append_assoc,List.singleton_append],hkeys⟩

/-- What the strict scan accepts, the plain one reads as the same value, and without
duplicate keys. -/
def Agrees {β : Type} (P : β → Prop) (strictly : Except (ScanError Str) (β × Text))
    (plainly : Except (ScanError Empty) (β × Text)) : Prop :=
  ∀ a r, strictly = .ok (a,r) → plainly = .ok (a,r) ∧ P a

theorem scanSeparated_agrees {β : Type} {P : β → Prop}
    {item : Text → Except (ScanError Str) (β × Text)}
    {item' : Text → Except (ScanError Empty) (β × Text)} {close : Char} {missing : String}
    (hitem : ∀ text, Agrees P (item text) (item' text)) {fuel : ℕ} {items : List β} {text : Text}
    (hitems : ∀ a ∈ items, P a) : Agrees (fun out => ∀ a ∈ out, P a)
      (scanSeparated item close missing fuel items text)
      (scanSeparated item' close missing fuel items text) := by
  induction fuel generalizing items text with
  | zero =>
    intro out r h
    cases h
  | succ fuel ih =>
    intro out r h
    rw [scanSeparated] at h ⊢
    cases hfound : item text with
    | error e =>
      rw [hfound] at h
      cases h
    | ok found =>
      obtain ⟨a,rest⟩ := found
      obtain ⟨hplain,ha⟩ := hitem text a rest hfound
      have hmore : ∀ b ∈ items ++ [a], P b := by
        intro b hb
        rcases List.mem_append.mp hb with hb | hb
        · exact hitems b hb
        · rw [List.mem_singleton.mp hb]
          exact ha
      rw [hfound] at h
      rw [hplain]
      cases rest with
      | nil => cases h
      | cons c rest =>
        simp only at h ⊢
        split_ifs at h ⊢ with hclose hcomma
        · cases h
          exact ⟨rfl,hmore⟩
        · exact ih hmore out r h
        · cases h

theorem hooked_agrees {pairs : List (Str × Value)} (hpairs : ∀ e ∈ pairs, UniqueKeys e.2)
    (rest : Text) : Agrees UniqueKeys (hooked strict pairs rest) (hooked source pairs rest) := by
  intro v r h
  unfold hooked at h
  cases hunique : rejectDuplicateKeys [] pairs with
  | error key => simp [strict,hunique] at h
  | ok out =>
    obtain ⟨hout,hkeys⟩ := rejectDuplicateKeys_ok (by simp) hunique
    rw [List.nil_append] at hout
    simp only [strict,hunique,Functor.map,Except.map] at h
    cases h
    rw [hout] at hkeys ⊢
    exact ⟨rfl,.dict hkeys hpairs⟩

section Strict

variable {scan : Text → Except (ScanError Str) (Value × Text)}
  {scan' : Text → Except (ScanError Empty) (Value × Text)}
  (hscan : ∀ text, Agrees UniqueKeys (scan text) (scan' text))

include hscan

theorem scanMember_agrees (text : Text) : Agrees (fun pair => UniqueKeys pair.2)
    (scanMember scan text) (scanMember scan' text) := by
  intro pair r h
  unfold scanMember at h ⊢
  split at h
  · rename_i text
    cases hkey : scanString (text.length + 1) none .plain text with
    | error e =>
      simp only [hkey,decoded,Except.mapError] at h
      cases h
    | ok found =>
      obtain ⟨key,rest⟩ := found
      simp only [hkey,decoded,Except.mapError] at h ⊢
      split_ifs at h ⊢ with hcolon
      · cases hvalue : scan (skipWs (skipWs rest).tail) with
        | error e =>
          rw [hvalue] at h
          cases h
        | ok value =>
          obtain ⟨v,rest'⟩ := value
          obtain ⟨hplain,hv⟩ := hscan _ v rest' hvalue
          rw [hvalue] at h
          cases h
          rw [hplain]
          exact ⟨rfl,hv⟩
      · cases h
  · cases h

theorem scanElement_agrees (text : Text) : Agrees UniqueKeys (scanElement scan text)
    (scanElement scan' text) := by
  intro v r h
  unfold scanElement at h ⊢
  cases hvalue : scan text with
  | error e =>
    rw [hvalue] at h
    cases h
  | ok value =>
    obtain ⟨w,rest⟩ := value
    obtain ⟨hplain,hw⟩ := hscan text w rest hvalue
    rw [hvalue] at h
    cases h
    rw [hplain]
    exact ⟨rfl,hw⟩

theorem scanObject_agrees (text : Text) : Agrees UniqueKeys (scanObject scan strict text)
    (scanObject scan' source text) := by
  intro v r h
  unfold scanObject at h ⊢
  split_ifs at h ⊢ with hclose
  · exact hooked_agrees (fun _ he => absurd he List.not_mem_nil) _ v r h
  · cases hpairs : scanSeparated (scanMember scan) '}'
      "Expecting property name enclosed in double quotes" (skipWs text).length []
      (skipWs text) with
    | error e => simp [hpairs] at h
    | ok found =>
      obtain ⟨pairs,rest⟩ := found
      obtain ⟨hplain,hunique⟩ := scanSeparated_agrees (scanMember_agrees hscan)
        (fun _ hpair => absurd hpair List.not_mem_nil) pairs rest hpairs
      rw [hpairs] at h
      rw [hplain]
      exact hooked_agrees hunique rest v r h

theorem scanArray_agrees (text : Text) : Agrees UniqueKeys (scanArray scan strict text)
    (scanArray scan' source text) := by
  intro v r h
  unfold scanArray at h ⊢
  split_ifs at h ⊢ with hclose
  · cases h
    exact ⟨rfl,.list fun _ hv => absurd hv List.not_mem_nil⟩
  · cases hitems : scanSeparated (scanElement scan) ']' "Expecting value" (skipWs text).length []
      (skipWs text) with
    | error e => simp [hitems] at h
    | ok found =>
      obtain ⟨items,rest⟩ := found
      obtain ⟨hplain,hunique⟩ := scanSeparated_agrees (scanElement_agrees hscan)
        (fun _ hitem => absurd hitem List.not_mem_nil) items rest hitems
      rw [hitems] at h
      cases h
      rw [hplain]
      exact ⟨rfl,.list hunique⟩

end Strict

theorem scanScalar_agrees (text : Text) :
    Agrees UniqueKeys (scanScalar strict text) (scanScalar source text) := by
  intro v r h
  unfold scanScalar at h ⊢
  cases hleaf : scanLeaf text with
  | error e => simp [hleaf] at h
  | ok found =>
    simp only [hleaf] at h ⊢
    cases h
    exact ⟨rfl,.leaf found.1⟩

theorem scanOnce_agrees (limit : ℕ) (text : Text) :
    Agrees UniqueKeys (scanOnce strict limit text) (scanOnce source limit text) := by
  induction limit generalizing text with
  | zero =>
    rw [scanOnce,scanOnce]
    split_ifs
    · intro v r h
      cases h
    · exact scanScalar_agrees text
  | succ limit ih =>
    rw [scanOnce,scanOnce]
    split_ifs
    · exact scanObject_agrees ih text.tail
    · exact scanArray_agrees ih text.tail
    · exact scanScalar_agrees text

/-- What the strict hook lets through is the text as written, free of duplicate keys at
every depth. -/
theorem loads_strict {limit : ℕ} {text : Text} {v : Value} (h : loads strict limit text = .ok v) :
    loads source limit text = .ok v ∧ UniqueKeys v := by
  unfold loads at h ⊢
  split_ifs at h ⊢ with hbom
  · cases h
  · cases hscan : scanOnce strict limit (skipWs text) with
    | error e => simp [hscan] at h
    | ok found =>
      obtain ⟨w,rest⟩ := found
      obtain ⟨hplain,hunique⟩ := scanOnce_agrees limit _ w rest hscan
      rw [hscan] at h
      rw [hplain]
      simp only at h ⊢
      split_ifs at h ⊢ with hend
      · cases h
        exact ⟨rfl,hunique⟩
      · cases h

end LocusMesh
