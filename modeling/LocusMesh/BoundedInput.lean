import Mathlib
import LocusMesh.Io

/-! The bound on what a parser receives: which of the entry points keep it, whatever a file
system reports of a path and yields when it is read. -/
namespace LocusMesh

open CanonicalJson PyText PyJson PyYaml PyOpener Fallible MeshLlmStatusObserver

namespace FixtureTopologyProvider

def read : File → Except PyError Text := boundedText "topology fixture exceeds 1 MiB"

def snapshot {α : Type} (validate : Value → Except PyError α) (limit : ℕ) (path : File) :
    Except PyError α := do
  let text ← read path
  let data ← parseJson "duplicate JSON key: " limit text
  validate data

end FixtureTopologyProvider

def FeedsParser {α : Type} (input : File → Except PyError Text)
    (entry : File → Except PyError α) : Prop :=
  ∃ parser : Text → Except PyError α, ∀ file, entry file = input file >>= parser

/-- With a path of that size and those bytes, the reading raises `ValueError` or hands on
what at most 1 MiB decodes to. -/
def KeepsBound (input : File → Except PyError Text) (size : ℕ) (raw : List UInt8) : Prop :=
  (∃ message, input ⟨.ok size,.ok raw⟩ = .error (.valueError message)) ∨
    raw.length ≤ maxInputBytes ∧ ∃ text, decodeUtf8 raw = some text ∧
      input ⟨.ok size,.ok raw⟩ = .ok (universalNewlines text)

section Reading

variable (tooLarge : String)

theorem boundedText_large {size : ℕ} {raw : List UInt8} (h : maxInputBytes < size) :
    boundedText tooLarge ⟨.ok size,.ok raw⟩ = .error (.valueError tooLarge) :=
  if_pos h

theorem boundedText_small {size : ℕ} {raw : List UInt8} (h : size ≤ maxInputBytes) :
    boundedText tooLarge ⟨.ok size,.ok raw⟩ =
      match decodeUtf8 raw with
      | none => .error (.valueError "invalid UTF-8")
      | some text => .ok (universalNewlines text) :=
  if_neg (not_lt.mpr h)

theorem boundedText_keepsBound_iff (size : ℕ) (raw : List UInt8) :
    KeepsBound (boundedText tooLarge) size raw ↔
      maxInputBytes < size ∨ raw.length ≤ maxInputBytes ∨ decodeUtf8 raw = none := by
  by_cases hsize : maxInputBytes < size
  · exact iff_of_true (.inl ⟨tooLarge,boundedText_large tooLarge hsize⟩) (.inl hsize)
  · rw [KeepsBound,boundedText_small tooLarge (not_lt.mp hsize)]
    cases hdecode : decodeUtf8 raw with
    | none => exact iff_of_true (.inl ⟨_,rfl⟩) (.inr (.inr rfl))
    | some text => simp [hsize]

end Reading

theorem loadJsonModel_feeds {α : Type} (validate : Value → Except PyError α) (limit : ℕ) :
    FeedsParser readBounded (loadJsonModel validate limit) := by
  refine ⟨fun text => parseJson "duplicate key: " limit text >>= validate,fun file => ?_⟩
  rw [loadJsonModel,loadJsonData,bind_assoc]

theorem loadYamlModel_feeds {α κ : Type} [DecidableEq κ]
    (compose : Text → Except PyError (Option Document)) (scalars : Scalars κ PyError)
    (validate : Option (YamlData κ) → Except PyError α) (limit : ℕ) :
    FeedsParser readBounded (loadYamlModel compose scalars validate limit) :=
  ⟨_,fun file => bind_assoc (readBounded file) _ _⟩

theorem snapshot_feeds {α : Type} (validate : Value → Except PyError α) (limit : ℕ) :
    FeedsParser FixtureTopologyProvider.read (FixtureTopologyProvider.snapshot validate limit) :=
  ⟨_,fun _ => rfl⟩

/-- The observer reads one byte more than it parses, and parses nothing where that byte
is there. -/
theorem fetch_bounded {u : Unicode} (o : MeshLlmStatusObserver u) (limit : ℕ)
    (endpoint : Request → Exchange) :
    (∃ e, o.fetch limit endpoint = .error e) ∨
      ∃ raw, raw.length ≤ maxResponseBytes ∧ o.fetch limit endpoint = parsed limit raw := by
  unfold fetch
  split
  · exact .inl ⟨_,rfl⟩
  · rename_i request _
    cases catching [.httpError,.urlError,.osError,.timeoutError] unavailable
        (exchanged (endpoint request)) with
    | error e => exact .inl ⟨e,rfl⟩
    | ok raw =>
      by_cases hlarge : maxResponseBytes < raw.length
      · exact .inl ⟨_,if_pos hlarge⟩
      · exact .inr ⟨raw,not_lt.mp hlarge,rfl⟩

/-- Each reading keeps the bound exactly where the reported size is above it, the bytes that
are read are not, or these are no UTF-8. The observer keeps it everywhere. -/
theorem parser_bounded_iff {α κ : Type} [DecidableEq κ]
    (compose : Text → Except PyError (Option Document)) (scalars : Scalars κ PyError)
    (validate : Value → Except PyError α) (validateYaml : Option (YamlData κ) → Except PyError α)
    (limit size : ℕ) (raw : List UInt8) :
    (FeedsParser readBounded (loadJsonModel validate limit) ∧
      FeedsParser readBounded (loadYamlModel compose scalars validateYaml limit) ∧
      (KeepsBound readBounded size raw ↔
        maxInputBytes < size ∨ raw.length ≤ maxInputBytes ∨ decodeUtf8 raw = none)) ∧
    (FeedsParser FixtureTopologyProvider.read (FixtureTopologyProvider.snapshot validate limit) ∧
      (KeepsBound FixtureTopologyProvider.read size raw ↔
        maxInputBytes < size ∨ raw.length ≤ maxInputBytes ∨ decodeUtf8 raw = none)) ∧
    ∀ (u : Unicode) (o : MeshLlmStatusObserver u) (endpoint : Request → Exchange),
      (∃ e, o.fetch limit endpoint = .error e) ∨
        ∃ raw, raw.length ≤ maxResponseBytes ∧ o.fetch limit endpoint = parsed limit raw := by
  refine ⟨⟨loadJsonModel_feeds validate limit,
    loadYamlModel_feeds compose scalars validateYaml limit,?_⟩,⟨snapshot_feeds validate limit,?_⟩,
    fun u o endpoint => fetch_bounded o limit endpoint⟩
  · exact boundedText_keepsBound_iff _ size raw
  · exact boundedText_keepsBound_iff _ size raw

namespace Demo

def pipe : List UInt8 := encodeUtf8 (String.ofList (List.replicate (maxInputBytes + 1) ' '))

theorem pipe_escapes : ¬(maxInputBytes < 0 ∨ pipe.length ≤ maxInputBytes ∨
    decodeUtf8 pipe = none) := by
  rw [pipe,encodeUtf8_replicate_length (by rfl),decodeUtf8_encode]
  simp

end Demo

theorem parser_unbounded_demo : ¬KeepsBound readBounded 0 Demo.pipe ∧
    ¬KeepsBound FixtureTopologyProvider.read 0 Demo.pipe := by
  rw [readBounded,FixtureTopologyProvider.read,boundedText_keepsBound_iff,
    boundedText_keepsBound_iff]
  exact ⟨Demo.pipe_escapes,Demo.pipe_escapes⟩

end LocusMesh
