import Mathlib.Data.List.Nodup
import Mathlib.Data.List.Range

namespace SessionEngine.Proxy

/-- A `ProxyManager`: the loaded proxies and the rotation index. Every method runs under
    `pm.mutex` from start to end, so each call is one atomic step and concurrent callers are
    served in the order they take the mutex. -/
structure ProxyManager where
  proxies : List String
  index : Nat
  deriving DecidableEq, Repr

/-- The locked section of `LoadProxies`, with the addresses read from the file. -/
def ProxyManager.loadProxies (_pm : ProxyManager) (loaded : List String) : ProxyManager :=
  ⟨loaded, 0⟩

/-- `GetNextProxy`: `""` when nothing is loaded; otherwise the proxy at `index`, and `index`
    moved on modulo the count. `none` is the panic of an index out of range. -/
def ProxyManager.getNextProxy (pm : ProxyManager) : Option (String × ProxyManager) :=
  if pm.proxies.length = 0 then some ("", pm)
  else pm.proxies[pm.index]?.map fun p => (p, { pm with index := (pm.index + 1) % pm.proxies.length })

/-- `n` calls in the order they take the mutex: what each returned, and the manager after them. -/
def ProxyManager.getNextProxies (pm : ProxyManager) : Nat → Option (List String × ProxyManager)
  | 0 => some ([], pm)
  | n + 1 =>
    pm.getNextProxy.bind fun (p, pm') => (pm'.getNextProxies n).map fun (ps, pm'') => (p :: ps, pm'')

/-- The proxies `CreateSessions(count, pm)` hands out when its goroutines, one per id, take the
    mutex in the order `order`: each id with the proxy its `GetNextProxy` returned. -/
def createSessionProxies (pm : ProxyManager) (order : List Nat) : Option (List (Nat × String)) :=
  (pm.getNextProxies order.length).map fun (ps, _) => order.zip ps

section Rotation

variable {loaded : List String}

theorem getNextProxy_of_lt {i : Nat} (inside : i < loaded.length) :
    (ProxyManager.mk loaded i).getNextProxy = some (loaded[i], ⟨loaded, (i + 1) % loaded.length⟩) := by
  simp [ProxyManager.getNextProxy, Nat.pos_iff_ne_zero.mp (Nat.lt_of_le_of_lt (Nat.zero_le i) inside), inside]

theorem getNextProxies_from {i : Nat} (inside : i < loaded.length) :
    ∀ n, (ProxyManager.mk loaded i).getNextProxies n =
      some ((List.range n).map (fun j => loaded.getD ((i + j) % loaded.length) ""),
        ⟨loaded, (i + n) % loaded.length⟩)
  | 0 => by simp [ProxyManager.getNextProxies, Nat.mod_eq_of_lt inside]
  | n + 1 => by
    have positive : 0 < loaded.length := Nat.lt_of_le_of_lt (Nat.zero_le i) inside
    rw [ProxyManager.getNextProxies, getNextProxy_of_lt inside, Option.some_bind]
    dsimp only
    rw [getNextProxies_from (Nat.mod_lt _ positive) n]
    simp only [Option.map_some', List.range_succ_eq_map, List.map_cons, List.map_map, Nat.add_zero,
      Nat.mod_eq_of_lt inside, List.getD_eq_getElem?_getD, List.getElem?_eq_getElem inside, Option.getD_some,
      Option.some.injEq, Prod.mk.injEq, List.cons.injEq, true_and, ProxyManager.mk.injEq]
    constructor
    · refine List.map_congr_left fun j _ => ?_
      rw [Function.comp_apply, Nat.mod_add_mod, Nat.succ_eq_add_one, Nat.add_assoc, Nat.add_comm 1 j]
    · rw [Nat.mod_add_mod, Nat.add_assoc, Nat.add_comm 1 n]

theorem count_positions {K : Nat} {p : Nat} (inside : p < K) :
    ∀ M, ((List.range (K * M)).map (· % K)).count p = M
  | 0 => by simp
  | M + 1 => by
    have round : (List.range K).map (fun j => (K * M + j) % K) = List.range K :=
      (List.map_congr_left fun j member => by
        rw [Nat.mul_add_mod, Nat.mod_eq_of_lt (List.mem_range.mp member)]; rfl).trans (List.map_id _)
    rw [Nat.mul_succ, List.range_add, List.map_append, List.count_append, count_positions inside M, List.map_map]
    simp only [Function.comp_def, round, List.count_eq_one_of_mem (List.nodup_range K) (List.mem_range.mpr inside)]

theorem get_next_proxy_round_robin (pm : ProxyManager) {loaded : List String} (nonempty : loaded ≠ []) (n : Nat) :
    (pm.loadProxies loaded).getNextProxies n =
        some ((List.range n).map (fun j => loaded.getD (j % loaded.length) ""), ⟨loaded, n % loaded.length⟩) ∧
      n % loaded.length < loaded.length ∧
      (∀ M, ∀ p < loaded.length, ((List.range (loaded.length * M)).map (· % loaded.length)).count p = M) ∧
      ∀ order : List Nat, createSessionProxies (pm.loadProxies loaded) order =
        some (order.zip ((List.range order.length).map fun j => loaded.getD (j % loaded.length) "")) := by
  have positive : 0 < loaded.length := List.length_pos.mpr nonempty
  have start := getNextProxies_from positive
  simp only [Nat.zero_add] at start
  refine ⟨start n, Nat.mod_lt _ positive, fun M p inside => count_positions inside M, fun order => ?_⟩
  simp only [createSessionProxies, ProxyManager.loadProxies, start, Option.map_some']

/-- Four calls over three proxies wrap around to the first. -/
example : ((ProxyManager.mk [] 0).loadProxies ["a", "b", "c"]).getNextProxies 4 =
    some (["a", "b", "c", "a"], ⟨["a", "b", "c"], 1⟩) := by
  decide

theorem get_next_proxy_round_robin_four_calls :
    ["a", "b", "c"] ≠ [] ∧
      ((ProxyManager.mk [] 0).loadProxies ["a", "b", "c"]).getNextProxies 4 =
          some ((List.range 4).map (fun j => ["a", "b", "c"].getD (j % ["a", "b", "c"].length) ""),
            ⟨["a", "b", "c"], 4 % ["a", "b", "c"].length⟩) ∧
        4 % ["a", "b", "c"].length < ["a", "b", "c"].length ∧
        (∀ M, ∀ p < ["a", "b", "c"].length,
          ((List.range (["a", "b", "c"].length * M)).map (· % ["a", "b", "c"].length)).count p = M) ∧
        ∀ order : List Nat, createSessionProxies ((ProxyManager.mk [] 0).loadProxies ["a", "b", "c"]) order =
          some (order.zip ((List.range order.length).map fun j => ["a", "b", "c"].getD (j % ["a", "b", "c"].length) "")) :=
  ⟨by decide, get_next_proxy_round_robin ⟨[], 0⟩ (by decide) 4⟩

end Rotation

end SessionEngine.Proxy
