import BitStore.Proofs.Arena.Calls
import BitStore.Proofs.Pages.Reservation

namespace BitStore

open BitStore.Action

namespace Arena

structure Fresh (a : Arena) : Prop where
  placed : a.region.Placed
  reserved : ∃ (σ : Type) (s : σ) (m : Machine) (source : PageSource) (size : Nat),
    ((reserve m source size : Action σ Arena).run s).result = .ok a

lemma Fresh.layout {a : Arena} (ha : a.Fresh) : a.Layout [] := by
  obtain ⟨hplaced, _, _, _, _, _, hreserve⟩ := ha
  obtain ⟨heq, hmod, _⟩ := reserve_ok hreserve
  generalize a.region = r at heq hmod hplaced
  subst heq
  refine ⟨⟨Chain.Lists.empty, rfl, ?_, Nat.zero_le _, hplaced, ?_⟩, FreeIndex.Files.empty, List.IsChain.nil⟩
  · simp
  · have hbase := hplaced.base_pos
    have hstop := hplaced.stop_le
    simp only [ofRegion, maxCount] at hstop ⊢
    omega

def page : Arena := ofRegion ⟨4096, 4096⟩

lemma page_fresh : page.Fresh :=
  ⟨⟨by decide, by decide⟩, Unit, (), .plain, ⟨.heap, .unknown⟩, 1, rfl⟩

inductive Call where
  | allocate (n : Nat)
  | resize (p n : Nat)
  | giveBack (p : Nat)
  | usableSize (p : Nat)
  | owns (p : Nat)
  | stats
  deriving DecidableEq, Repr

inductive Answer where
  | done
  | address (p : Nat)
  | size (n : Nat)
  | owned (b : Bool)
  | stats (s : ArenaStats)
  deriving DecidableEq, Repr

namespace Call

def action : Call → Action Arena Answer
  | allocate n => do return .address (← Arena.allocate n)
  | resize p n => do return .address (← Arena.resize p n)
  | giveBack p => do
    Arena.giveBack p
    return .done
  | usableSize p => do return .size (← Arena.usableSize p)
  | owns p => .read fun a => do return .owned (← a.owns p)
  | stats => .read fun a => do return .stats (← a.stats)

def onTiling (t : Tiling) : Call → Except StoreError (Answer × Tiling)
  | allocate n => (t.allocate n).map (Prod.map .address id)
  | resize p n => (t.resize p n).map (Prod.map .address id)
  | giveBack p => (t.giveBack p).map (Prod.map (fun _ => .done) id)
  | usableSize p => (t.usableSize p).map fun size => (.size size, t)
  | owns p => .ok (.owned (t.owns p), t)
  | stats => .ok (.stats t.stats, t)

lemma onTiling_allocate {t u : Tiling} {n q : Nat} (h : t.allocate n = .ok (q, u)) :
    (allocate n).onTiling t = .ok (.address q, u) := by
  rw [onTiling, h]
  rfl

lemma onTiling_resize {t u : Tiling} {p n q : Nat} (h : t.resize p n = .ok (q, u)) :
    (resize p n).onTiling t = .ok (.address q, u) := by
  rw [onTiling, h]
  rfl

lemma onTiling_giveBack {t u : Tiling} {p : Nat} (h : t.giveBack p = .ok ((), u)) :
    (giveBack p).onTiling t = .ok (.done, u) := by
  rw [onTiling, h]
  rfl

end Call

variable {a : Arena} {l : List Node}

lemma Follows.map {α β : Type} {x : Action Arena α} {r : Except StoreError (α × Tiling)}
    {post : α → Arena → List Node → Prop} (f : α → β) (hx : Follows x a r post) :
    Follows (do return f (← x)) a (r.map (Prod.map f id)) fun _ _ _ => True := by
  cases r with
  | error e => exact Yields.bind_error hx
  | ok r =>
    apply Ends.bind hx
    rintro w t ⟨rfl, l', ht, hu, _⟩
    exact (yields_pure _).ends ⟨rfl, l', ht, hu, trivial⟩

lemma Follows.unchanged {α : Type} {x : Action Arena α} {v : α} (ha : a.Layout l) (hx : x.Yields a (.ok v) a) :
    Follows x a (.ok (v, a.tiling l)) fun _ _ _ => True :=
  hx.ends ⟨rfl, l, ha, rfl, trivial⟩

lemma call_follows (ha : a.Layout l) (k : Call) :
    Follows k.action a (k.onTiling (a.tiling l)) fun _ _ _ => True := by
  cases k with
  | allocate n => exact (allocate_follows ha n).map _
  | resize p n => exact (resize_follows ha p n).map _
  | giveBack p => exact (giveBack_follows ha p).map _
  | usableSize p =>
    have hfollows := (usableSize_follows ha p).map Answer.size
    rw [Call.onTiling]
    cases hsize : (a.tiling l).usableSize p <;> rw [hsize] at hfollows <;> exact hfollows
  | owns p =>
    have howns : (do return Answer.owned (← a.owns p)) = Except.ok (Answer.owned ((a.tiling l).owns p)) := by
      rw [owns_eq ha]
      rfl
    exact Follows.unchanged ha (yields_read howns)
  | stats =>
    have hstats : (do return Answer.stats (← a.stats)) = Except.ok (Answer.stats (a.tiling l).stats) := by
      rw [stats_eq ha]
      rfl
    exact Follows.unchanged ha (yields_read hstats)

def after (a : Arena) : List Call → Arena
  | [] => a
  | k :: rest => (k.action.run a).state.after rest

def answers (a : Arena) : List Call → List (Except Stop Answer)
  | [] => []
  | k :: rest => (k.action.run a).result :: (k.action.run a).state.answers rest

end Arena

namespace Tiling

open Arena

def call (t : Tiling) (k : Call) : Except Stop Answer × Tiling :=
  match k.onTiling t with
  | .ok (v, u) => (.ok v, u)
  | .error e => (.error (.error e), t)

def after (t : Tiling) : List Call → Tiling
  | [] => t
  | k :: rest => (t.call k).2.after rest

def answers (t : Tiling) : List Call → List (Except Stop Answer)
  | [] => []
  | k :: rest => (t.call k).1 :: (t.call k).2.answers rest

end Tiling

namespace Arena

variable {a : Arena} {l : List Node}

lemma call_layout (ha : a.Layout l) (k : Call) :
    (k.action.run a).result = ((a.tiling l).call k).1 ∧
      ∃ l', (k.action.run a).state.Layout l' ∧ (k.action.run a).state.tiling l' = ((a.tiling l).call k).2 := by
  have hfollows := call_follows ha k
  rw [Tiling.call]
  cases hcall : k.onTiling (a.tiling l) with
  | error e =>
    rw [hcall] at hfollows
    obtain ⟨hresult, hstate⟩ := hfollows
    exact ⟨hresult, l, by rw [hstate]; exact ha, by rw [hstate]⟩
  | ok r =>
    obtain ⟨v, u⟩ := r
    rw [hcall] at hfollows
    obtain ⟨_, t, ⟨hresult, hstate⟩, rfl, l', ht, hu, _⟩ := hfollows
    exact ⟨hresult, l', by rw [hstate]; exact ht, by rw [hstate]; exact hu⟩

lemma Layout.onTiling_ok (ha : a.Layout l) {k : Call} {v : Answer} (h : (k.action.run a).result = .ok v) :
    ∃ u, k.onTiling (a.tiling l) = .ok (v, u) := by
  have hresult := (call_layout ha k).1
  rw [h, Tiling.call] at hresult
  cases hk : k.onTiling (a.tiling l) with
  | error e =>
    rw [hk] at hresult
    cases hresult
  | ok r =>
    rw [hk] at hresult
    obtain rfl := Except.ok.inj hresult
    exact ⟨r.2, rfl⟩

lemma Layout.call_ok (ha : a.Layout l) {k : Call} {v : Answer} {u : Tiling}
    (h : k.onTiling (a.tiling l) = .ok (v, u)) : (k.action.run a).result = .ok v ∧
      ∃ l', (k.action.run a).state.Layout l' ∧ (k.action.run a).state.tiling l' = u := by
  have hcall := call_layout ha k
  rwa [Tiling.call, h] at hcall

lemma run_layout (ha : a.Layout l) (calls : List Call) :
    a.answers calls = (a.tiling l).answers calls ∧
      ∃ l', (a.after calls).Layout l' ∧ (a.after calls).tiling l' = (a.tiling l).after calls := by
  induction calls generalizing a l with
  | nil => exact ⟨rfl, l, ha, rfl⟩
  | cons k rest ih =>
    obtain ⟨hresult, l', hlayout, htiling⟩ := call_layout ha k
    obtain ⟨hanswers, hafter⟩ := ih hlayout
    rw [htiling] at hanswers hafter
    refine ⟨?_, hafter⟩
    rw [answers, Tiling.answers, hresult, hanswers]

lemma Fresh.after_layout {a : Arena} (ha : a.Fresh) (calls : List Call) :
    ∃ l, (a.after calls).Layout l ∧
      (a.after calls).tiling l = (Tiling.mk a.region [] a.memory).after calls :=
  (run_layout ha.layout calls).2

lemma Fresh.result_after {a : Arena} (ha : a.Fresh) (calls : List Call) (k : Call) :
    (k.action.run (a.after calls)).result = (((Tiling.mk a.region [] a.memory).after calls).call k).1 := by
  obtain ⟨l, hl, htiling⟩ := ha.after_layout calls
  rw [(call_layout hl k).1, htiling]

theorem answers_eq_tiling {a : Arena} (ha : a.Fresh) (calls : List Call) :
    a.answers calls = (Tiling.mk a.region [] a.memory).answers calls ∧
      ∃ l, (a.after calls).Layout l ∧
        (a.after calls).tiling l = (Tiling.mk a.region [] a.memory).after calls :=
  run_layout ha.layout calls

theorem answers_eq_tiling_page :
    page.Fresh ∧ page.answers [.allocate 100, .allocate 40, .giveBack 4096, .allocate 64, .resize 4200 200,
        .allocate 5000, .giveBack 4200, .usableSize 4240, .owns 4440, .stats] =
      [.ok (.address 4096), .ok (.address 4200), .ok .done, .ok (.address 4096), .ok (.address 4240),
        .error (.error (.outOfMemory 5000 3752)), .error (.error (.invalidPointer 4200)), .ok (.size 200),
        .ok (.owned false), .ok (.stats ⟨4096, 344, 264, 80, 3, 1⟩)] :=
  ⟨page_fresh, (answers_eq_tiling page_fresh _).1.trans (by decide)⟩

end Arena

end BitStore
