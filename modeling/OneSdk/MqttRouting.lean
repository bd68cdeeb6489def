import OneSdk.MqttCallback
import OneSdk.TopicFilter

namespace OneSdk.MqttRouting

open CString MqttContext MqttCallback TopicFilter

def slash : UInt8 := 47

def mqttRoute (pub : InboundPublish) (maps : List TopicMap) : Option (Nat × Action) :=
  (firstMatch (fun m => Matches slash plus pub.topic m.topic) 0 maps).map (fun r => (r.1, deliver pub r.2))

/-- The second test reads the last byte of a filter that the first has refused, so there is to be one. -/
def ReadsInside (topic : Bytes) : List TopicMap → Prop
  | [] => True
  | m :: maps => topicMatches topic m.topic = true ∨ (m.topic ≠ [] ∧ ReadsInside topic maps)

/-- CLIENT_RX calls the callback of the first entry that the MQTT rule selects. -/
def RoutesByRule (pub : InboundPublish) (maps : List TopicMap) : Prop :=
  ReadsInside pub.topic maps ∧ rxLoop pub 0 maps = mqttRoute pub maps

/-- A filter that is empty, goes on from the topic, ends where the topic has a zero byte, begins like the topic up to a
final '+', or takes the topic by the rule. -/
def Touches (topic filter : Bytes) : Prop :=
  filter = [] ∨ topic <+: filter ∨ filter ++ [0] <+: topic ∨ (∃ stem, filter = stem ++ [plus] ∧ stem <+: topic) ∨
    Matches slash plus topic filter

/-- Of the filters that touch the topic the first is the topic itself, or ends with the level '+' where the topic has
one level. -/
inductive FirstServed (topic : Bytes) : List TopicMap → Prop
  | nil : FirstServed topic []
  | served {m : TopicMap} {maps : List TopicMap} (h : Served slash plus topic m.topic) : FirstServed topic (m :: maps)
  | untouched {m : TopicMap} {maps : List TopicMap} (h : ¬Touches topic m.topic) (hrest : FirstServed topic maps) :
      FirstServed topic (m :: maps)

theorem rxLoop_firstMatch (pub : InboundPublish) (i : Nat) (maps : List TopicMap) :
    rxLoop pub i maps =
      (firstMatch (fun m => topicMatches pub.topic m.topic) i maps).map (fun r => (r.1, deliver pub r.2)) := by
  induction maps generalizing i with
  | nil => rfl
  | cons m maps ih =>
      rw [rxLoop, firstMatch]
      split
      · rfl
      · exact ih (i + 1)

theorem rxLoop_eq_iff (pub : InboundPublish) (maps : List TopicMap) :
    rxLoop pub 0 maps = mqttRoute pub maps ↔
      Agree (fun m : TopicMap => topicMatches pub.topic m.topic)
        (fun m => Matches slash plus pub.topic m.topic) maps := by
  rw [mqttRoute, rxLoop_firstMatch]
  constructor
  · intro h
    refine (firstMatch_fst_eq_iff 0 maps).mp ?_
    have hfst := congrArg (Option.map Prod.fst) h
    rw [Option.map_map, Option.map_map] at hfst
    exact hfst
  · intro h
    rw [firstMatch_of_agree 0 h]

/-- `strncmp` stops at a zero byte in the first string where the second ends. -/
theorem strncmpEq_iff {n : Nat} {a b : Bytes} (hb : 0 ∉ b) :
    strncmpEq n a b = true ↔ a.take n = b.take n ∨ (b.length < n ∧ b ++ [0] <+: a) := by
  induction n generalizing a b with
  | zero => simp [strncmpEq]
  | succ n ih =>
      cases a with
      | nil =>
          cases b with
          | nil => simp [strncmpEq]
          | cons y b =>
              have hy : ¬y = 0 := fun h => hb (by simp [h])
              simp [strncmpEq, hy]
      | cons x a =>
          cases b with
          | nil =>
              by_cases hx : x = 0
              · simp [strncmpEq, hx]
              · simp [strncmpEq, hx, Ne.symm hx]
          | cons y b =>
              have hy : ¬y = 0 := fun h => hb (by simp [h])
              have hi := @ih a b (fun h => hb (List.mem_cons_of_mem y h))
              by_cases hxy : x = y
              · subst hxy
                simp [strncmpEq, hy, hi]
              · simp [strncmpEq, hxy, Ne.symm hxy]

theorem topicMatches_cases {topic filter : Bytes} (hf : 0 ∉ filter) :
    topicMatches topic filter = true ↔
      topic <+: filter ∨ filter ++ [0] <+: topic ∨ ∃ stem, filter = stem ++ [plus] ∧ stem <+: topic := by
  rw [topicMatches, Bool.or_eq_true, Bool.and_eq_true, strncmpEq_iff hf, strncmpEq_iff hf, List.take_length,
    ← List.prefix_iff_eq_take, beq_iff_eq, List.getLast?_eq_some_iff, or_assoc]
  refine or_congr Iff.rfl (or_congr ?_ ?_)
  · refine and_iff_right_of_imp (fun h => ?_)
    have hle := h.length_le
    rw [List.length_append, List.length_singleton] at hle
    exact hle
  · constructor
    · rintro ⟨⟨stem, rfl⟩, hstem⟩
      refine ⟨stem, rfl, ?_⟩
      rw [List.length_append, List.length_singleton, Nat.add_sub_cancel, List.take_left] at hstem
      rcases hstem with hstem | ⟨hlt, -⟩
      · exact hstem ▸ List.take_prefix _ _
      · omega
    · rintro ⟨stem, rfl, hstem⟩
      refine ⟨⟨stem, rfl⟩, .inl ?_⟩
      rw [List.length_append, List.length_singleton, Nat.add_sub_cancel, List.take_left]
      exact (List.prefix_iff_eq_take.mp hstem).symm

/-- The code accepts a filter that begins with the topic, and one whose part before a
final '+' the topic begins with. -/
theorem topicMatches_iff {topic filter : Bytes} (ht : 0 ∉ topic) (hf : 0 ∉ filter) :
    topicMatches topic filter = true ↔ topic <+: filter ∨ ∃ stem, filter = stem ++ [plus] ∧ stem <+: topic := by
  rw [topicMatches_cases hf]
  refine or_congr Iff.rfl (or_iff_right (fun h => ht (h.subset ?_)))
  exact List.mem_append_right _ (List.mem_singleton_self 0)

theorem touches_iff (topic : Bytes) {filter : Bytes} (hf : 0 ∉ filter) :
    Touches topic filter ↔ filter = [] ∨ topicMatches topic filter = true ∨ Matches slash plus topic filter := by
  rw [Touches, topicMatches_cases hf, or_assoc, or_assoc]

theorem served_iff (topic : Bytes) {filter : Bytes} (hf : 0 ∉ filter) :
    Served slash plus topic filter ↔ topicMatches topic filter = true ∧ Matches slash plus topic filter := by
  rw [topicMatches_cases hf]
  constructor
  · intro h
    refine ⟨?_, h.matches (by decide)⟩
    cases h with
    | same => exact .inl List.prefix_rfl
    | level hstem hlevel => exact .inr (.inr ⟨_, rfl, List.prefix_append _ _⟩)
  · rintro ⟨⟨more, rfl⟩ | ⟨more, rfl⟩ | ⟨stem, rfl, more, rfl⟩, hmatch⟩
    · have hmatch' : Matches slash plus (topic ++ []) (topic ++ more) := by rwa [List.append_nil]
      have hserved := hmatch'.served (.inl List.not_mem_nil)
      rwa [List.append_nil] at hserved
    · rw [List.append_assoc] at hmatch ⊢
      have hmatch' : Matches slash plus (filter ++ ([0] ++ more)) (filter ++ []) := by rwa [List.append_nil]
      have hserved := hmatch'.served (.inr List.not_mem_nil)
      rwa [List.append_nil] at hserved
    · exact hmatch.served (.inr (by decide))

/-- Messages are routed by the MQTT rule, and all reads are inside the filters, for exactly the tables whose
first filter
that touches the topic serves it. -/
theorem routesByRule_iff (pub : InboundPublish) (maps : List TopicMap) (hmaps : ∀ m ∈ maps, 0 ∉ m.topic) :
    RoutesByRule pub maps ↔ FirstServed pub.topic maps := by
  rw [RoutesByRule, rxLoop_eq_iff]
  induction maps with
  | nil => exact iff_of_true ⟨trivial, by simp [Agree]⟩ .nil
  | cons m maps ih =>
      obtain ⟨hm, hrest⟩ := List.forall_mem_cons.mp hmaps
      have htouch := touches_iff pub.topic hm
      have hserve := served_iff pub.topic hm
      have hcons : FirstServed pub.topic (m :: maps) ↔
          Served slash plus pub.topic m.topic ∨ (¬Touches pub.topic m.topic ∧ FirstServed pub.topic maps) := by
        constructor
        · rintro (_ | h | ⟨h, hfirst⟩)
          · exact .inl h
          · exact .inr ⟨h, hfirst⟩
        · rintro (h | ⟨h, hfirst⟩)
          · exact .served h
          · exact .untouched h hfirst
      rw [hcons, hserve, htouch, ← ih hrest, agree_cons, ReadsInside]
      cases hcode : topicMatches pub.topic m.topic with
      | true => simp
      | false =>
          by_cases hrule : Matches slash plus pub.topic m.topic
          · simp [hrule]
          · simp [hrule, and_assoc]

theorem literal_disagrees_iff {topic filter : Bytes} (ht : 0 ∉ topic) (hf : 0 ∉ filter) (hp : plus ∉ filter)
    (hl : [plus] ∉ filter.splitOn slash) :
    topicMatches topic filter = true ∧ ¬Matches slash plus topic filter ↔ topic <+: filter ∧ topic ≠ filter := by
  rw [topicMatches_iff ht hf, matches_literal slash plus hl]
  refine and_congr ⟨?_, .inl⟩ Iff.rfl
  rintro (h | ⟨stem, rfl, -⟩)
  · exact h
  · exact absurd (List.mem_append.mpr (.inr (List.mem_singleton_self plus))) hp

def webshell : TopicMap := ⟨text "cmd/+/post", 1, 0, 0, qos1⟩

def notify : TopicMap := ⟨text "ota/+", 2, 0, 0, qos1⟩

theorem routesByRule_notify : RoutesByRule ⟨text "ota/j1", [1], 1⟩ [notify, webshell] := by
  refine (routesByRule_iff _ [notify, webshell] (by decide)).mpr (.served ?_)
  have hstem : Opens slash (text "ota/") := .inr ⟨text "ota", rfl⟩
  have hlevel : slash ∉ text "j1" := by decide
  exact .level hstem hlevel

/-- The message reaches no callback. -/
theorem routesByRule_fails : ¬RoutesByRule ⟨text "cmd/u/post", [1], 1⟩ [webshell] := by
  have hroute : rxLoop ⟨text "cmd/u/post", [1], 1⟩ 0 [webshell] ≠ mqttRoute ⟨text "cmd/u/post", [1], 1⟩ [webshell] := by
    decide
  exact fun h => hroute h.2

end OneSdk.MqttRouting
