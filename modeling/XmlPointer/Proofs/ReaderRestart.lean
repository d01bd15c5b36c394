import Mathlib
import XmlPointer.Proofs.PointerStream

/-! # Restarting a pointer reader

A restart drops all that the reader holds before it resolves again, so what follows depends on
the reader's settings alone: restarting a reader, whatever it has read, is starting a new one
with the same settings on the same store. A restart fails exactly when parsing the pointer,
having the document or evaluating the pointer fails, and then leaves a finished reader that
holds nothing and reads nothing, however often it is read. -/
namespace XmlPointer

namespace PointerReader

theorem read_of_finished {r : PointerReader} (h : r.phase = .finished) :
    r.read = (none, { r with started := true }) := by
  simp [read, readFuel, readFrom, h]

theorem read_iterate_of_finished {r : PointerReader} (h : r.phase = .finished) (n : Nat) :
    ((Prod.snd ∘ read)^[n] r).phase = .finished ∧ ((Prod.snd ∘ read)^[n] r).read.1 = none := by
  induction n generalizing r with
  | zero => simp [read_of_finished h, h]
  | succ n ih =>
    rw [Function.iterate_succ_apply]
    exact ih (by simp [read_of_finished h, h])

variable (src : Source) (text : String) (live : List Nat) (s : Store)

theorem resolve_fails_iff (r : PointerReader) :
    (∃ e, (r.resolve src text live s).1 = .error e) ↔
      (Pointer.parse text).isOk = false ∨ ∃ p, Pointer.parse text = .ok p ∧
        ((src.materialize r.settings live s).1.isOk = false ∨
          ∃ d, (src.materialize r.settings live s).1 = .ok d ∧ (p.evaluate d.doc 0).isOk = false) := by
  unfold resolve
  rcases hp : Pointer.parse text with e | p
  · simp [Except.isOk, Except.toBool]
  rcases hm : src.materialize r.settings live s with ⟨e | d, s'⟩
  · simp [Except.isOk, Except.toBool]
  rcases he : p.evaluate d.doc 0 with e | items
  · simp [Except.isOk, Except.toBool, he]
  · simp [Except.isOk, Except.toBool, he]

theorem restart_eq_start (r : PointerReader) :
    r.restart src text live s =
      match start r.settings src text live s with
      | (.ok r', s') => (.ok (), r', s')
      | (.error e, s') => (.error e, { settings := r.settings, phase := .finished }, s') := by
  unfold start restart
  dsimp only
  split <;> simp

theorem restart_fails_iff (r : PointerReader) :
    (∃ e, (r.restart src text live s).1 = .error e) ↔
      ∃ e, (({ settings := r.settings, phase := .resolving } : PointerReader).resolve src text live s).1 =
        .error e := by
  unfold restart
  dsimp only
  split <;> simp_all

/-- Restarting a reader forgets all of its earlier run: the restart fails exactly when parsing
the pointer, having the document or evaluating the pointer fails; it then fails as starting a
new reader with the same settings on the same store fails, and leaves a finished reader with no
pointer, document, match or item, which reads nothing however often it is read; when it
succeeds, the reader is the very one that starting builds, so every later read and observation
is that of the new reader. -/
theorem restart_forgets_earlier_run (r : PointerReader) {res : Except ReaderError Unit}
    {r' : PointerReader} {s' : Store} (h : r.restart src text live s = (res, r', s')) :
    ((∃ e, res = .error e) ↔
      (Pointer.parse text).isOk = false ∨ ∃ p, Pointer.parse text = .ok p ∧
        ((src.materialize r.settings live s).1.isOk = false ∨
          ∃ d, (src.materialize r.settings live s).1 = .ok d ∧ (p.evaluate d.doc 0).isOk = false)) ∧
    (∀ e, res = .error e → start r.settings src text live s = (.error e, s') ∧
      r'.phase = .finished ∧ r'.matchCount = 0 ∧ r'.pointer = none ∧ r'.document = none ∧
      r'.currentMatch = none ∧ r'.readState = .endOfFile ∧
      ∀ n, ((Prod.snd ∘ read)^[n] r').read.1 = none) ∧
    (res = .ok () → start r.settings src text live s = (.ok r', s')) := by
  have hfails := (restart_fails_iff src text live s r).trans (resolve_fails_iff src text live s _)
  rw [h] at hfails
  rw [restart_eq_start] at h
  rcases hstart : start r.settings src text live s with ⟨e₀ | r₀, s₀⟩
  all_goals rw [hstart] at h; simp only [Prod.mk.injEq] at h
  · -- a failed start: the restart fails with its error and leaves the finished reader
    obtain ⟨rfl, rfl, rfl⟩ := h
    refine ⟨hfails, fun e he => ?_, fun hok => (by cases hok)⟩
    cases he
    exact ⟨rfl, rfl, rfl, rfl, rfl, rfl, rfl, fun n => (read_iterate_of_finished rfl n).2⟩
  · obtain ⟨rfl, rfl, rfl⟩ := h
    exact ⟨hfails, fun e he => (by cases he), fun _ => rfl⟩

/-- A reader in the middle of a stream, restarted on an empty pointer, is left finished and
reads nothing. -/
theorem restart_on_empty_pointer_finishes :
    ({ settings := {}, phase := .streaming, started := true } : PointerReader).restart
        (.document ⟨0, default⟩) "" [] (Store.init {} 1) =
      (.error (.pointer (.malformed .empty 0)), { settings := {}, phase := .finished },
        Store.init {} 1) ∧
    ((∃ e, (.error (.pointer (.malformed .empty 0)) : Except ReaderError Unit) = .error e) ↔
      (Pointer.parse "").isOk = false ∨ ∃ p, Pointer.parse "" = .ok p ∧
        (((Source.document ⟨0, default⟩).materialize {} [] (Store.init {} 1)).1.isOk = false ∨
          ∃ d, ((Source.document ⟨0, default⟩).materialize {} [] (Store.init {} 1)).1 = .ok d ∧
            (p.evaluate d.doc 0).isOk = false)) ∧
    (∀ e, (.error (.pointer (.malformed .empty 0)) : Except ReaderError Unit) = .error e →
      start {} (.document ⟨0, default⟩) "" [] (Store.init {} 1) = (.error e, Store.init {} 1) ∧
      ({ settings := {}, phase := .finished } : PointerReader).phase = .finished ∧
      ({ settings := {}, phase := .finished } : PointerReader).matchCount = 0 ∧
      ({ settings := {}, phase := .finished } : PointerReader).pointer = none ∧
      ({ settings := {}, phase := .finished } : PointerReader).document = none ∧
      ({ settings := {}, phase := .finished } : PointerReader).currentMatch = none ∧
      ({ settings := {}, phase := .finished } : PointerReader).readState = .endOfFile ∧
      ∀ n, ((Prod.snd ∘ read)^[n] ({ settings := {}, phase := .finished } : PointerReader)).read.1 =
        none) ∧
    ((.error (.pointer (.malformed .empty 0)) : Except ReaderError Unit) = .ok () →
      start {} (.document ⟨0, default⟩) "" [] (Store.init {} 1) =
        (.ok { settings := {}, phase := .finished }, Store.init {} 1)) := by
  have h : ({ settings := {}, phase := .streaming, started := true } : PointerReader).restart
      (.document ⟨0, default⟩) "" [] (Store.init {} 1) =
        (.error (.pointer (.malformed .empty 0)), { settings := {}, phase := .finished },
          Store.init {} 1) := rfl
  exact ⟨h, restart_forgets_earlier_run _ _ _ _ _ h⟩

end PointerReader

end XmlPointer
