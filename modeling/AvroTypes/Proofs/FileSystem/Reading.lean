import AvroTypes.FileSystem.Tree
import AvroTypes.FileSystem.Directory
import Mathlib.Data.List.Forall2
import Mathlib.Tactic.Lemma
import Mathlib.Tactic.SplitIfs

/-!
# Programs on a file system

Run on a file system, a program comes to a result and leaves a file system.  One that only looks
leaves the file system as it was, whatever it comes to.  Such programs are closed under all that a
walk is put together with, so a walk is one of them.

* `runOn` — the result and the file system afterwards.
* `OnlyLooks` — programs that only look, and what their results are like.
* `onlyLooks_filesEndingIn` — **a walk only looks.**
-/

namespace AvroTypes

/-- What a program comes to on a file system, and the file system afterwards. -/
def runOn {ε α : Type} (program : ExceptT ε (StateM FileSystem) α) (fs : FileSystem) :
    Except ε α × FileSystem :=
  (program.run.run fs).run

section

variable {ε ε' α β : Type} {fs fs' : FileSystem} {program : ExceptT ε (StateM FileSystem) α}
  {next : α → ExceptT ε (StateM FileSystem) β}

lemma runOn_bind (program : ExceptT ε (StateM FileSystem) α)
    (next : α → ExceptT ε (StateM FileSystem) β) (fs : FileSystem) :
    runOn (program >>= next) fs = match runOn program fs with
      | (.ok a, fs') => runOn (next a) fs'
      | (.error error, fs') => (.error error, fs') := by
  simp only [runOn, ExceptT.run_bind, StateT.run_bind, Id.run_bind]
  obtain ⟨outcome, fs'⟩ := (program.run.run fs).run
  cases outcome <;> rfl

lemma runOn_bind_of_ok {a : α} (h : runOn program fs = (.ok a, fs')) :
    runOn (program >>= next) fs = runOn (next a) fs' := by
  rw [runOn_bind, h]

lemma runOn_bind_of_error {error : ε} (h : runOn program fs = (.error error, fs')) :
    runOn (program >>= next) fs = (.error error, fs') := by
  rw [runOn_bind, h]

lemma runOn_adapt (change : ε → ε') (program : ExceptT ε (StateM FileSystem) α)
    (fs : FileSystem) :
    runOn (program.adapt change) fs =
      ((runOn program fs).1.mapError change, (runOn program fs).2) := rfl

lemma runOn_liftExcept (result : Except ε α) (fs : FileSystem) :
    runOn (liftExcept result : ExceptT ε (StateM FileSystem) α) fs = (result, fs) := by
  cases result <;> rfl

/-- All of a list, one after the other, none of which fails or changes anything. -/
lemma runOn_mapM {f : α → ExceptT ε (StateM FileSystem) β} {items : List α} {results : List β}
    (h : List.Forall₂ (fun item result => runOn (f item) fs = (.ok result, fs)) items results) :
    runOn (items.mapM f) fs = (.ok results, fs) := by
  induction h with
  | nil => rfl
  | cons first _ ih =>
      rw [List.mapM_cons, runOn_bind_of_ok first, runOn_bind_of_ok ih]
      rfl

end

/-! ## Programs that only look -/

/-- **A program that only looks**, and whose results are like `post`. -/
def OnlyLooks {ε α : Type} (program : ExceptT ε (StateM FileSystem) α) (post : α → Prop) : Prop :=
  ∀ fs, ∃ result, runOn program fs = (result, fs) ∧ ∀ a, result = .ok a → post a

namespace OnlyLooks

variable {ε ε' α β : Type} {program : ExceptT ε (StateM FileSystem) α}
  {next : α → ExceptT ε (StateM FileSystem) β} {post : α → Prop} {post' : β → Prop}

lemma result (a : α) (h : post a) :
    OnlyLooks (pure a : ExceptT ε (StateM FileSystem) α) post := fun _ =>
  ⟨.ok a, rfl, fun _ same => Except.ok.inj same ▸ h⟩

lemma failure (error : ε) :
    OnlyLooks (throw error : ExceptT ε (StateM FileSystem) α) post := fun _ =>
  ⟨.error error, rfl, fun _ same => by cases same⟩

/-- What follows a failure does not matter. -/
lemma stop (error : ε) (next : α → ExceptT ε (StateM FileSystem) β) :
    OnlyLooks (throw error >>= next) post' := fun _ =>
  ⟨.error error, rfl, fun _ same => by cases same⟩

lemma look (look : FileSystem → Except IoError α) :
    OnlyLooks (looking look) fun _ => True := fun fs =>
  ⟨look fs, rfl, fun _ _ => trivial⟩

lemma bind (first : OnlyLooks program post) (second : ∀ a, post a → OnlyLooks (next a) post') :
    OnlyLooks (program >>= next) post' := by
  intro fs
  obtain ⟨outcome, hrun, hpost⟩ := first fs
  cases outcome with
  | ok a =>
      rw [runOn_bind_of_ok hrun]
      exact second a (hpost a rfl) fs
  | error error => exact ⟨.error error, runOn_bind_of_error hrun, fun _ same => by cases same⟩

lemma adapt (h : OnlyLooks program post) (change : ε → ε') :
    OnlyLooks (program.adapt change) post := by
  intro fs
  obtain ⟨outcome, hrun, hpost⟩ := h fs
  refine ⟨outcome.mapError change, by rw [runOn_adapt, hrun], fun a same => hpost a ?_⟩
  cases outcome with
  | ok a' => exact congrArg _ (Except.ok.inj same)
  | error error => cases same

lemma ofExcept {outcome : Except ε α} (h : ∀ a, outcome = .ok a → post a) :
    OnlyLooks (liftExcept outcome : ExceptT ε (StateM FileSystem) α) post := fun fs =>
  ⟨outcome, runOn_liftExcept outcome fs, h⟩

/-- All of a list, one after the other. -/
lemma mapM {f : α → ExceptT ε (StateM FileSystem) β} {items : List α}
    (h : ∀ item, OnlyLooks (f item) post') :
    OnlyLooks (items.mapM f) fun results => ∀ b ∈ results, post' b := by
  induction items with
  | nil =>
      rw [List.mapM_nil]
      exact result [] (by simp)
  | cons item rest ih =>
      rw [List.mapM_cons]
      refine (h item).bind fun b hb => ih.bind fun others hothers => result _ fun other hother => ?_
      rcases List.mem_cons.mp hother with rfl | hother
      · exact hb
      · exact hothers other hother

end OnlyLooks

section

variable {ε α β : Type} {program : ExceptT ε (StateM FileSystem) α}
  {next : α → ExceptT ε (StateM FileSystem) β} {fs fs' : FileSystem} {post : α → Prop}
  {post' : β → Prop}

/-- A program that goes on after one that only looks succeeds only if that one does. -/
lemma exists_of_runOn_bind {b : β} (h : runOn (program >>= next) fs = (.ok b, fs'))
    (first : OnlyLooks program post) :
    ∃ a, runOn program fs = (.ok a, fs) ∧ runOn (next a) fs = (.ok b, fs') := by
  obtain ⟨outcome, hrun, -⟩ := first fs
  cases outcome with
  | ok a => exact ⟨a, hrun, runOn_bind_of_ok hrun ▸ h⟩
  | error error =>
      rw [runOn_bind_of_error hrun] at h
      cases h

/-- All of a list succeed only if each does. -/
lemma exists_of_runOn_mapM {f : α → ExceptT ε (StateM FileSystem) β} {items : List α}
    {results : List β} (h : runOn (items.mapM f) fs = (.ok results, fs'))
    (each : ∀ item, OnlyLooks (f item) post') {item : α} (hitem : item ∈ items) :
    ∃ result, runOn (f item) fs = (.ok result, fs) := by
  induction items generalizing results fs' with
  | nil => cases hitem
  | cons first rest ih =>
      rw [List.mapM_cons] at h
      obtain ⟨result, hfirst, h⟩ := exists_of_runOn_bind h (each first)
      rcases List.mem_cons.mp hitem with rfl | hitem
      · exact ⟨result, hfirst⟩
      · obtain ⟨others, hrest, -⟩ := exists_of_runOn_bind h (.mapM each)
        exact ih hrest hitem

end

/-! ## A walk -/

lemma onlyLooks_arrive (named : EntryKind) (path : String) :
    OnlyLooks (arrive named path : ExceptT WalkError (StateM FileSystem) _) fun _ => True := by
  cases named with
  | directory | link => exact (OnlyLooks.look _).adapt _
  | file | special => exact .result _ trivial

/-- **The files at a path are found by looking**, by induction on how deep the walk may go. -/
lemma onlyLooks_filesFrom (depth : Nat) (ancestors : List Ancestor) (named : EntryKind)
    (path : String) :
    OnlyLooks (filesFrom depth ancestors named path : ExceptT WalkError (StateM FileSystem) _)
      fun _ => True := by
  induction depth generalizing ancestors named path with
  | zero => exact .failure _
  | succ depth ih =>
      rw [filesFrom]
      refine (onlyLooks_arrive named path).bind fun reached _ => ?_
      obtain ⟨kind, location⟩ := reached
      -- what is inside a directory
      have inside : OnlyLooks (do
          let entries ← onPath path (FileStore.entries path)
          let inside ← (entries.mergeSort fun first second => inNameOrder first.1 second.1).mapM
            fun entry =>
              filesFrom depth (⟨path, location⟩ :: ancestors) entry.2 (joinPath path entry.1)
          return inside.flatten : ExceptT WalkError (StateM FileSystem) _) fun _ => True := by
        refine ((OnlyLooks.look _).adapt _).bind fun entries _ => ?_
        exact (OnlyLooks.mapM fun entry => ih _ _ _).bind fun _ _ => .result _ trivial
      cases kind with
      | file => exact .result _ trivial
      | link => exact .result _ trivial
      | special => exact .result _ trivial
      | directory =>
          dsimp only
          split_ifs
          · split
            · exact .stop _ _
            · exact inside
          · exact inside

lemma onlyLooks_filesBelow (path : String) :
    OnlyLooks (filesBelow path : ExceptT WalkError (StateM FileSystem) _) fun _ => True := by
  have limit : OnlyLooks (ExceptT.lift FileStore.depthLimit :
      ExceptT WalkError (StateM FileSystem) Nat) fun _ => True := fun fs =>
    ⟨_, rfl, fun _ _ => trivial⟩
  refine limit.bind fun depth _ => ((OnlyLooks.look _).adapt _).bind fun named _ => ?_
  exact onlyLooks_filesFrom depth [] named path

/-- **A walk only looks.** -/
theorem onlyLooks_filesEndingIn (ending path : String) :
    OnlyLooks (filesEndingIn ending path : ExceptT WalkError (StateM FileSystem) _)
      fun _ => True :=
  (onlyLooks_filesBelow path).bind fun _ _ => .result _ trivial

end AvroTypes
