import Mathlib.Data.List.TakeWhile
import Misokube.Lib.Regex

/-!
# The two parsers of `CNI_ARGS`

The plugin extracts the name, the namespace and the UID of the pod from the arguments by regular
expressions, and the resolver splits the arguments into items `key=value`.  The arguments are byte
strings.  An extractor returns `none` where it panics, which is when there is no match.

An extractor finds the first `key=` in the arguments that is followed by a text without a newline,
wherever it stands.  So the two agree if and only if for each key this text is the value of the item
of that key (`agrees_iff`).
-/

namespace Cni

open Regex

/-- The bytes of an ASCII string. -/
def ascii (s : String) : Text :=
  s.toList.map fun c => c.toNat.toUInt8

def semicolon : UInt8 := 0x3B

def equals : UInt8 := 0x3D

def hyphen : UInt8 := 0x2D

def podNameKey : Text := ascii "K8S_POD_NAME"

def podNamespaceKey : Text := ascii "K8S_POD_NAMESPACE"

def podUIDKey : Text := ascii "K8S_POD_UID"

def podKeys : List Text := [podNameKey, podNamespaceKey, podUIDKey]

/-! ### The extractors -/

/-- `(-?)key=(.+?)(;|$)` -/
def podRegex (key : Text) : Regex :=
  .seq (.group 1 (.alt (.literal [hyphen]) (.literal [])))
    (.seq (.literal (key ++ [equals]))
      (.seq (.group 2 (.lazySome Regex.any))
        (.group 3 (.alt (.literal [semicolon]) .endOfText))))

def getPodRegex (key arg : Text) : Option Text :=
  let mf := (podRegex key).findStringSubmatch arg
  mf[2]?

def getPodNameRegex (arg : Text) : Option Text :=
  getPodRegex podNameKey arg

def getPodNamespaceRegex (arg : Text) : Option Text :=
  getPodRegex podNamespaceKey arg

def getPodUIDRegex (arg : Text) : Option Text :=
  getPodRegex podUIDKey arg

/-! ### The parser of the resolver -/

/-- What `ParseK8sArgs` returns. -/
structure K8sArgs where
  ns : Text
  pod : Text
  uid : Text
deriving DecidableEq

/-- `strings.SplitN(kv, "=", 2)` -/
def splitN (kv : Text) : List Text :=
  match kv.dropWhile (· != equals) with
  | [] => [kv]
  | _ :: value => [kv.takeWhile (· != equals), value]

/-- One item of the arguments. -/
def parseItem (a : K8sArgs) (kv : Text) : K8sArgs :=
  if kv = [] then a
  else
    match splitN kv with
    | [key, value] =>
      if key = podNameKey then { a with pod := value }
      else if key = podNamespaceKey then { a with ns := value }
      else if key = podUIDKey then { a with uid := value }
      else a
    | _ => a

def parseK8sArgs (args : Text) : K8sArgs :=
  (args.splitOn semicolon).foldl parseItem ⟨[], [], []⟩

/-! ### Statements -/

/-- The key of an item that has one. -/
def keyOf (kv : Text) : Option Text :=
  match splitN kv with
  | [key, _] => some key
  | _ => none

/-- The keys of the items are pairwise distinct. -/
def DistinctKeys (args : Text) : Prop :=
  ((args.splitOn semicolon).filterMap keyOf).Nodup

instance (args : Text) : Decidable (DistinctKeys args) :=
  inferInstanceAs (Decidable (List.Nodup _))

/-- The extractors do not panic, and return what the parser returns. -/
def Agrees (args : Text) : Prop :=
  getPodNameRegex args = some (parseK8sArgs args).pod
    ∧ getPodNamespaceRegex args = some (parseK8sArgs args).ns
    ∧ getPodUIDRegex args = some (parseK8sArgs args).uid

instance (args : Text) : Decidable (Agrees args) :=
  inferInstanceAs (Decidable (_ ∧ _ ∧ _))

/-- For every `key=` in the arguments, the text that follows it, up to the next semicolon after its
first byte. -/
def followers (key args : Text) : List Text :=
  (args.tails.filter (key ++ [equals] <+: ·)).map fun t =>
    upTo semicolon (t.drop (key ++ [equals]).length)

/-- There is an item with this key, and its value is the first text that follows `key=` in the
arguments, of those that are not empty and have no newline. -/
def Readable (key args : Text) : Prop :=
  ∃ value, key ++ equals :: value ∈ args.splitOn semicolon
    ∧ (followers key args).find? (fun v => v ≠ [] ∧ 0x0A ∉ v) = some value

/-- The keys begin with an ASCII byte other than a hyphen, and have no equals sign. -/
def IsKey (key : Text) : Prop :=
  (∃ b ∈ key.head?, b < 0x80 ∧ b ≠ hyphen) ∧ equals ∉ key

instance (key : Text) : Decidable (IsKey key) :=
  inferInstanceAs (Decidable (_ ∧ _))

theorem isKey_podKeys :
  ∀ key ∈ podKeys, IsKey key
  := by decide

/-! ### What the extractors find -/

/-- What the expression finds at the start of a text without a hyphen. -/
def follower (key t : Text) : Option Text :=
  if key ++ [equals] <+: t then
    let v := upTo semicolon (t.drop (key ++ [equals]).length)
    if v = [] ∨ 0x0A ∈ v then none else some v
  else none

/-- What the expression captures at a position: with the hyphen, if there is one, or without. -/
theorem submatch_podRegex (key t : Text) :
  (podRegex key).submatch 2 t
    = (if [hyphen] <+: t then follower key (t.drop 1) else none).or (follower key t)
  := by
  have hfollower : ∀ s, (Regex.seq (.literal (key ++ [equals]))
      (.seq (.group 2 (.lazySome Regex.any))
        (.group 3 (.alt (.literal [semicolon]) .endOfText)))).submatch 2 s
      = follower key s := by
    intro s
    rw [submatch_literal_seq, submatch_upTo (by decide)]
    rfl
  rw [podRegex, submatch_group_seq (by decide), submatch_alt_seq, submatch_literal_seq, hfollower,
    submatch_literal_seq, hfollower, if_pos List.nil_prefix]
  rfl

theorem follower_of_ne {key : Text} {b c : UInt8} (hb : b ∈ key.head?) (hc : c ≠ b) (t : Text) :
  follower key (c :: t) = none
  := by
  cases key with
  | nil => cases hb
  | cons b' key =>
    cases hb
    rw [follower, if_neg]
    rw [List.cons_append, List.cons_prefix_cons]
    rintro ⟨rfl, -⟩
    exact hc rfl

theorem follower_nil (key : Text) :
  follower key [] = none
  := by
  simp [follower]

/-- A byte that is no ASCII starts no match. -/
theorem run_podRegex {key : Text} (hkey : IsKey key) {b : UInt8} (hb : 0x80 ≤ b) (t : Text) :
  (podRegex key).run (b :: t) = []
  := by
  obtain ⟨⟨c, hc, hlt, -⟩, -⟩ := hkey
  have hbc : b ≠ c := by
    rintro rfl
    exact absurd hlt (UInt8.not_lt.mpr hb)
  have hhyphen : ¬ [hyphen] <+: b :: t := by
    rw [List.cons_prefix_cons]
    rintro ⟨rfl, -⟩
    revert hb
    decide
  rw [← submatch_eq_none (i := 2), submatch_podRegex, if_neg hhyphen, follower_of_ne hc hbc]
  rfl

/-- A hyphen before the key makes no difference. -/
theorem findSome?_submatch {key : Text} (hkey : IsKey key) (args : Text) :
  args.tails.findSome? ((podRegex key).submatch 2) = args.tails.findSome? (follower key)
  := by
  induction args with
  | nil => simp [submatch_podRegex, follower_nil]
  | cons b t ih =>
    obtain ⟨⟨c, hc, -, hne⟩, -⟩ := hkey
    rw [List.tails_cons, List.findSome?_cons, List.findSome?_cons, ih, submatch_podRegex]
    by_cases hb : b = hyphen
    · -- the same text is found at the next byte
      subst hb
      rw [follower_of_ne hc hne.symm, if_pos (by simp), Option.or_none, List.drop_one,
        List.tail_cons]
      cases hfollower : follower key t with
      | none => rfl
      | some v =>
        cases t with
        | nil =>
          rw [follower_nil] at hfollower
          cases hfollower
        | cons b' t => simp [hfollower]
    · rw [if_neg]
      · rfl
      · rw [List.cons_prefix_cons]
        rintro ⟨rfl, -⟩
        exact hb rfl

/-- The extractor returns the first follower of the key that is not empty and on one line. -/
theorem getPodRegex_eq {key : Text} (hkey : IsKey key) (args : Text) :
  getPodRegex key args = (followers key args).find? fun v => v ≠ [] ∧ 0x0A ∉ v
  := by
  have hnum : 1 < (podRegex key).numSubexp := Nat.lt_succ_self 1 |>.trans (Nat.lt_succ_self 2)
  rw [getPodRegex, getElem?_findStringSubmatch (fun b t hb => run_podRegex hkey hb t) hnum,
    findSome?_submatch hkey, followers]
  induction args.tails with
  | nil => rfl
  | cons t l ih =>
    rw [List.findSome?_cons, ih, follower, List.filter_cons]
    by_cases hkey : key ++ [equals] <+: t
    · simp only [hkey, if_true, decide_true, List.map_cons, List.find?_cons]
      by_cases hv : upTo semicolon (t.drop (key ++ [equals]).length) = []
          ∨ 0x0A ∈ upTo semicolon (t.drop (key ++ [equals]).length)
      · rw [if_pos hv, decide_eq_false]
        rwa [← not_or, not_not]
      · rw [if_neg hv, decide_eq_true]
        rwa [← not_or]
    · simp [hkey]

/-! ### What the parser finds -/

/-- An item is split at its first equals sign. -/
theorem splitN_eq_iff {kv key value : Text} :
  splitN kv = [key, value] ↔ kv = key ++ equals :: value ∧ equals ∉ key
  := by
  constructor
  · intro h
    have happend := List.takeWhile_append_dropWhile (p := (· != equals)) (l := kv)
    rw [splitN] at h
    split at h
    · cases h
    · next c v hdrop =>
      cases h
      have hc : c = equals := by
        have hne : kv.dropWhile (· != equals) ≠ [] := by
          rw [hdrop]
          exact List.cons_ne_nil c _
        simpa [hdrop] using List.head_dropWhile_not (· != equals) hne
      rw [hdrop, hc] at happend
      refine ⟨happend.symm, ?_⟩
      intro hmem
      simpa using List.mem_takeWhile_imp hmem
  · rintro ⟨rfl, hkey⟩
    have hall : ∀ c ∈ key, (c != equals) = true := by
      intro c hc
      rw [bne_iff_ne]
      rintro rfl
      exact hkey hc
    rw [splitN, List.dropWhile_append_of_pos hall, List.takeWhile_append_of_pos hall]
    simp

theorem keyOf_eq_some_iff {kv key : Text} :
  keyOf kv = some key ↔ ∃ value, splitN kv = [key, value]
  := by
  rw [keyOf]
  split
  · next key' value hsplit => simp [hsplit]
  · next hne =>
    simp only [reduceCtorEq, false_iff, not_exists]
    intro value
    apply hne

/-- What is returned for a key. -/
def K8sArgs.get (a : K8sArgs) (key : Text) : Text :=
  if key = podNameKey then a.pod
  else if key = podNamespaceKey then a.ns
  else if key = podUIDKey then a.uid
  else []

/-- An item of another key leaves the value. -/
theorem parseItem_of_ne {kv key : Text} (h : keyOf kv ≠ some key) (a : K8sArgs) :
  (parseItem a kv).get key = a.get key
  := by
  rw [parseItem]
  split_ifs
  · rfl
  · split
    · next key' value hsplit =>
      have hne : key ≠ key' := by
        rintro rfl
        exact h (keyOf_eq_some_iff.mpr ⟨value, hsplit⟩)
      split_ifs with hname hnamespace huid
      · subst hname
        simp [K8sArgs.get, hne]
      · subst hnamespace
        simp [K8sArgs.get, hne]
      · subst huid
        simp [K8sArgs.get, hne]
      · rfl
    · rfl

/-- An item of the key sets the value. -/
theorem parseItem_of_splitN {kv key value : Text} (hkey : key ∈ podKeys)
    (hsplit : splitN kv = [key, value]) (a : K8sArgs) :
  (parseItem a kv).get key = value
  := by
  have hkv : kv ≠ [] := by
    rintro rfl
    cases hsplit
  rw [parseItem, if_neg hkv, hsplit]
  simp only [podKeys, List.mem_cons, List.not_mem_nil, or_false] at hkey
  obtain rfl | rfl | rfl := hkey
  · rfl
  · rfl
  · rfl

/-- A key without an item keeps its value. -/
theorem foldl_parseItem_of_notMem {key : Text} {items : List Text}
    (h : key ∉ items.filterMap keyOf) (a : K8sArgs) :
  (items.foldl parseItem a).get key = a.get key
  := by
  induction items generalizing a with
  | nil => rfl
  | cons kv items ih =>
    have hkv : keyOf kv ≠ some key := by
      intro hkv
      apply h
      rw [List.mem_filterMap]
      exact ⟨kv, List.mem_cons_self, hkv⟩
    have hitems : key ∉ items.filterMap keyOf := by
      intro hmem
      apply h
      exact ((List.sublist_cons_self kv items).filterMap keyOf).subset hmem
    rw [List.foldl_cons, ih hitems, parseItem_of_ne hkv]

/-- A key with one item gets the value of that item. -/
theorem foldl_parseItem_of_mem {key value : Text} (hkey : key ∈ podKeys) {items : List Text}
    (hdistinct : (items.filterMap keyOf).Nodup) {kv : Text} (hmem : kv ∈ items)
    (hsplit : splitN kv = [key, value]) (a : K8sArgs) :
  (items.foldl parseItem a).get key = value
  := by
  induction items generalizing a with
  | nil => cases hmem
  | cons kv' items ih =>
    rw [List.foldl_cons]
    obtain rfl | hmem := List.mem_cons.mp hmem
    · rw [List.filterMap_cons_some (keyOf_eq_some_iff.mpr ⟨value, hsplit⟩),
        List.nodup_cons] at hdistinct
      rw [foldl_parseItem_of_notMem hdistinct.1, parseItem_of_splitN hkey hsplit]
    · apply ih _ hmem
      apply List.Nodup.sublist _ hdistinct
      exact (List.sublist_cons_self kv' items).filterMap keyOf

/-- The extractor finds the value that the parser finds exactly if the value is readable. -/
theorem getPodRegex_iff {key args : Text} (hkey : key ∈ podKeys) (hdistinct : DistinctKeys args) :
  getPodRegex key args = some ((parseK8sArgs args).get key) ↔ Readable key args
  := by
  have hequals : equals ∉ key := (isKey_podKeys key hkey).2
  rw [getPodRegex_eq (isKey_podKeys key hkey)]
  constructor
  · intro h
    refine ⟨_, ?_, h⟩
    -- a value that is not empty is that of an item
    have hne : (parseK8sArgs args).get key ≠ [] := by
      have hfind := List.find?_some h
      rw [decide_eq_true_eq] at hfind
      exact hfind.1
    have hmem : key ∈ (args.splitOn semicolon).filterMap keyOf := by
      by_contra hmem
      apply hne
      rw [parseK8sArgs, foldl_parseItem_of_notMem hmem]
      simp [K8sArgs.get]
    obtain ⟨kv, hkv, hkeyOf⟩ := List.mem_filterMap.mp hmem
    obtain ⟨value, hsplit⟩ := keyOf_eq_some_iff.mp hkeyOf
    rw [parseK8sArgs, foldl_parseItem_of_mem hkey hdistinct hkv hsplit]
    rw [← (splitN_eq_iff.mp hsplit).1]
    exact hkv
  · rintro ⟨value, hmem, hfind⟩
    have hsplit : splitN (key ++ equals :: value) = [key, value] :=
      splitN_eq_iff.mpr ⟨rfl, hequals⟩
    rw [hfind, parseK8sArgs, foldl_parseItem_of_mem hkey hdistinct hmem hsplit]

/-! ### Agreement -/

/-- If the keys of the items are distinct, then the extractors and the parser agree if and only if
all three keys can be read. -/
theorem agrees_iff {args : Text} (hdistinct : DistinctKeys args) :
  Agrees args ↔ ∀ key ∈ podKeys, Readable key args
  := by
  have hkeys : Agrees args
      ↔ ∀ key ∈ podKeys, getPodRegex key args = some ((parseK8sArgs args).get key) := by
    rw [podKeys, List.forall_mem_cons, List.forall_mem_cons, List.forall_mem_singleton]
    rfl
  rw [hkeys]
  constructor
  · intro h key hkey
    apply (getPodRegex_iff hkey hdistinct).mp (h key hkey)
  · intro h key hkey
    apply (getPodRegex_iff hkey hdistinct).mpr (h key hkey)

/-- The arguments of a container runtime for the pod `default/web`. -/
def runtimeArgs : Text :=
  ascii "IgnoreUnknown=1;K8S_POD_NAMESPACE=default;K8S_POD_NAME=web;K8S_POD_UID=7f"

theorem runtimeArgs_agrees :
  DistinctKeys runtimeArgs ∧ Agrees runtimeArgs ∧ ∀ key ∈ podKeys, Readable key runtimeArgs
  := by
  have hdistinct : DistinctKeys runtimeArgs := by decide +kernel
  have hagrees : Agrees runtimeArgs := by decide +kernel
  exact ⟨hdistinct, hagrees, (agrees_iff hdistinct).mp hagrees⟩

/-- There is no UID. -/
def withoutUID : Text :=
  ascii "K8S_POD_NAMESPACE=default;K8S_POD_NAME=web"

/-- The name is empty. -/
def withoutName : Text :=
  ascii "K8S_POD_NAMESPACE=default;K8S_POD_NAME=;K8S_POD_UID=7f"

/-- The key of another item ends with that of the name. -/
def withOtherName : Text :=
  ascii "MY_K8S_POD_NAME=db;K8S_POD_NAMESPACE=default;K8S_POD_NAME=web;K8S_POD_UID=7f"

/-- The extractor of the UID panics, an empty name is read as the item after it, and another name is
read. -/
theorem not_agrees :
  (DistinctKeys withoutUID ∧ ¬ Agrees withoutUID)
    ∧ (DistinctKeys withoutName ∧ ¬ Agrees withoutName)
    ∧ DistinctKeys withOtherName ∧ ¬ Agrees withOtherName
  := by
  decide +kernel

end Cni
