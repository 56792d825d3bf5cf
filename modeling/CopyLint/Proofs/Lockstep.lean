import Mathlib.Data.List.Forall2
import CopyLint.Proofs.LayoutRun

/-! Two runs side by side. Where definitions wait for the same ones and get the same layout from
every memo, one can stand in for the other: each step of a run does the same with them, so that the
runs give the same layouts or fail for the same reason. -/
namespace CopyLint

/-- The definitions cannot be told apart by a run, each with its own index. -/
structure TypeDef.Alike (config : Config) (index index' : Index) (t t' : TypeDef) : Prop where
  identity_eq : t'.identity = t.identity
  name_eq : t'.name = t.name
  pending_eq : ∀ memo : Memo, memo.firstPending t'.fields = memo.firstPending t.fields
  layout_eq : ∀ memo, ((Sizing.fieldLayout config index' Sizing.remembered t').run memo).1 =
    ((Sizing.fieldLayout config index Sizing.remembered t).run memo).1

def Index.Alike (config : Config) (index index' : Index) : Prop :=
  ∀ identity, Option.Rel (TypeDef.Alike config index index') (index.find? identity)
    (index'.find? identity)

namespace Progress

variable {config : Config} {index index' : Index} {p p' : Progress}

structure Alike (config : Config) (index index' : Index) (p p' : Progress) : Prop where
  stack : p.stack.Forall₂ (TypeDef.Alike config index index') p'.stack
  active_eq : p'.active = p.active
  memo_eq : p'.memo = p.memo

inductive Step.Alike (config : Config) (index index' : Index) : Step → Step → Prop where
  | finished : Alike config index index' .finished .finished
  | failed (cause : LayoutError) : Alike config index index' (.failed cause) (.failed cause)
  | next {p p' : Progress} : p.Alike config index index' p' →
      Alike config index index' (.next p) (.next p')

theorem alike_start {t t' : TypeDef} (h : t.Alike config index index' t') (memo : Memo) :
    (start memo t).Alike config index index' (start memo t') :=
  ⟨.cons h .nil, congrArg ([·]) h.identity_eq, rfl⟩

theorem Alike.push (h : p.Alike config index index' p') {t t' : TypeDef}
    (ht : t.Alike config index index' t') :
    (p.push t).Alike config index index' (p'.push t') where
  stack := .cons ht h.stack
  active_eq := by simp only [Progress.push, ht.identity_eq, h.active_eq]
  memo_eq := h.memo_eq

theorem Alike.settle (h : p.Alike config index index' p') {top top' : TypeDef}
    (htop : top.Alike config index index' top') {below below' : List TypeDef}
    (hbelow : below.Forall₂ (TypeDef.Alike config index index') below') (layout : Layout) :
    (p.settle top below layout).Alike config index index' (p'.settle top' below' layout) where
  stack := hbelow
  active_eq := by simp only [Progress.settle, htop.identity_eq, h.active_eq]
  memo_eq := by simp only [Progress.settle, htop.identity_eq, h.memo_eq]

theorem Alike.step (hindex : index.Alike config index') (h : p.Alike config index index' p') :
    (p.step config index).Alike config index index' (p'.step config index') := by
  have hstacks := h.stack
  cases hstack : p.stack with
  | nil =>
    rw [hstack, List.forall₂_nil_left_iff] at hstacks
    rw [Progress.step, Progress.step, hstack, hstacks]
    exact .finished
  | cons top below =>
    rw [hstack, List.forall₂_cons_left_iff] at hstacks
    obtain ⟨top', below', htop, hbelow, hstack'⟩ := hstacks
    rw [step_eq config index hstack, step_eq config index' hstack', h.memo_eq, h.active_eq,
      htop.pending_eq, htop.layout_eq]
    cases p.memo.firstPending top.fields with
    | none =>
      dsimp only
      cases ((Sizing.fieldLayout config index Sizing.remembered top).run p.memo).1 with
      | ok layout => exact .next (h.settle htop hbelow layout)
      | error cause => exact .failed cause
    | some reference =>
      have hfound := hindex reference.1
      dsimp only
      generalize index.find? reference.1 = found, index'.find? reference.1 = found' at hfound
      cases hfound with
      | none => exact .failed _
      | some ht =>
        dsimp only
        rw [ht.name_eq]
        split
        · exact .failed _
        · exact .next (h.push ht)

theorem Alike.run_eq (hindex : index.Alike config index') (h : p.Alike config index index' p') :
    p'.run config index' = p.run config index := by
  fun_induction Progress.run config index p generalizing p' with
  | case1 p hstep | case2 p cause hstep =>
    have hstep' := h.step hindex
    rw [hstep] at hstep'
    rw [Progress.run_eq, ← h.memo_eq]
    generalize p'.step config index' = outcome at hstep'
    cases hstep'
    rfl
  | case3 p q hstep ih =>
    have hstep' := h.step hindex
    rw [hstep] at hstep'
    rw [Progress.run_eq]
    generalize p'.step config index' = outcome at hstep'
    cases hstep' with
    | next hnext => exact ih hnext

end Progress

namespace Sizing

variable {config : Config} {index index' : Index} {t t' : TypeDef}

theorem remembered_congr (hidentity : t'.identity = t.identity) (hname : t'.name = t.name) :
    remembered t' = remembered t := by
  simp only [remembered, hidentity, hname]

theorem run_layoutOf_alike (hindex : index.Alike config index')
    (h : t.Alike config index index' t') (memo : Memo) :
    (layoutOf config index' t').run memo = (layoutOf config index t).run memo := by
  have hrun : (Progress.start memo t').run config index' =
      (Progress.start memo t).run config index := (Progress.alike_start h memo).run_eq hindex
  rw [layoutOf_run, layoutOf_run, hrun, h.identity_eq, remembered_congr h.identity_eq h.name_eq]

theorem require_rel {R : TypeDef → TypeDef → Prop} {identity : String}
    (hfind : Option.Rel R (index.find? identity) (index'.find? identity)) (name : String)
    {β : Type} {f f' : TypeDef → Sizing β} (hf : ∀ t t', R t t' → f' t' = f t) :
    ((liftM (index'.require identity name) : Sizing TypeDef) >>= f') =
      (liftM (index.require identity name) : Sizing TypeDef) >>= f := by
  unfold Index.require
  generalize index.find? identity = found, index'.find? identity = found' at hfind
  cases hfind with
  | none => rfl
  | some hrel => exact hf _ _ hrel

end Sizing

end CopyLint
