import ArkanGold.Shop.Checkout
import ArkanGold.Lib.Fallible

/-!
# The amounts of a created order

How the amounts of an order that `checkout` creates hang together: `checkout_charged`. The discount
is a whole number of rials between zero and the sum of the items (`computeDiscountRial_bounds`), a
row is charged its packaging or none of it (`Packed`), and the total is what the parts come to, also
where a fee of shipping is rounded.
-/

namespace ArkanGold

namespace ShopOrdersService

open Numeric Fallible

/-! ## Running a checkout -/

theorem column_eq_ok {q : ℚ} {n : ℤ} (h : column q = .ok n) :
    n = roundHalfAway q ∧ |n| < 10 ^ 18 := by
  unfold column at h
  split at h
  case isTrue hlt =>
    obtain rfl := Except.ok.inj h
    exact ⟨rfl, hlt⟩
  case isFalse => cases h

theorem column_int {m n : ℤ} (h : column m = .ok n) : n = m :=
  (column_eq_ok h).1.trans (roundHalfAway_intCast m)

/-- What a checkout goes through that creates an order. -/
theorem checkout_cases {shop : Shop} {userId : String} {dto : CreateShopOrderDto}
    {order : ShopOrder} (h : checkout shop userId dto = .ok order) :
    ∃ cart shipping rows discount inputs, shop.cart = some cart ∧ cart.items ≠ [] ∧
      ShippingService.resolveForCheckout shop dto cart.items = .ok shipping ∧
      cart.items.mapM (orderItemData shop dto cart.items) = .ok rows ∧
      discountFor shop userId dto (rows.map (·.lineRial)).sum = .ok discount ∧
      cart.items.mapM (packagingInput shop) = .ok inputs ∧
      createOrder userId shipping (rows.map (·.lineRial)).sum discount
        (PackagingService.computeCharges inputs (rows.map (·.lineRial)).sum
          shop.globalThresholdRial) (cart.items.zip rows) = .ok order := by
  unfold checkout at h
  simp only [bind, Except.bind, throw, throwThe, MonadExceptOf.throw] at h
  split at h
  · cases h
  · split at h
    · rename_i cart hcart
      split at h
      · cases h
      · split at h
        · cases h
        · obtain ⟨hcart', hitems⟩ := Option.filter_eq_some_iff.mp hcart
          split at h
          · cases h
          · rename_i shipping hshipping
            split at h
            · cases h
            · rename_i rows hrows
              split at h
              · cases h
              · rename_i discount hdiscount
                split at h
                · cases h
                · rename_i inputs hinputs
                  exact ⟨cart, shipping, rows, discount, inputs, hcart', by simpa using hitems,
                    hshipping, hrows, hdiscount, hinputs, h⟩
    · cases h

/-! ## The discount -/

namespace DiscountService

/-- Rounding a tenth to twenty digits does not reach the next whole toman. -/
theorem ten_mul_floor_le {x : ℚ} {subtotalRial : ℤ} (hx : x ≤ subtotalRial)
    (hfits : subtotalRial < 10 ^ 18) (hpos : 0 ≤ ⌊Decimal.dividedBy precision x 10⌋) :
    ⌊Decimal.dividedBy precision x 10⌋ * 10 ≤ subtotalRial := by
  have hfloor := Int.floor_le (Decimal.dividedBy precision x 10)
  have hfits' : (subtotalRial : ℚ) < 10 ^ 18 := by exact_mod_cast hfits
  have hpos' : (0 : ℚ) ≤ ⌊Decimal.dividedBy precision x 10⌋ := by exact_mod_cast hpos
  have hnear : |Decimal.dividedBy precision x 10 - x / 10| * 10 ^ 20 ≤ 5 * |x / 10| :=
    Decimal.sig_near precision (x / 10)
  generalize Decimal.dividedBy precision x 10 = t at hpos hpos' hfloor hnear ⊢
  have herror : (t - x / 10) * 10 ^ 20 ≤ 5 * |x / 10| :=
    (mul_le_mul_of_nonneg_right (le_abs_self _) (by positivity)).trans hnear
  obtain hneg | hx0 := lt_or_ge x 0
  · rw [abs_of_neg (by linarith)] at herror
    linarith
  · rw [abs_of_nonneg (by positivity)] at herror
    have hlt : ((⌊t⌋ * 10 : ℤ) : ℚ) < ((subtotalRial + 1 : ℤ) : ℚ) := by
      push_cast
      linarith
    exact Int.lt_add_one_iff.mp (by exact_mod_cast hlt)

theorem computeDiscountRial_bounds (code : DiscountCode) {subtotalRial : ℤ}
    (hsubtotal : 0 ≤ subtotalRial) (hfits : subtotalRial < 10 ^ 18) :
    ∃ n : ℤ, computeDiscountRial code subtotalRial = n ∧ 0 ≤ n ∧ n ≤ subtotalRial := by
  have hx : min (uncappedDiscount code subtotalRial) (subtotalRial : ℚ) ≤ subtotalRial :=
    min_le_right ..
  generalize hxe : min (uncappedDiscount code subtotalRial) (subtotalRial : ℚ) = x at hx
  have hcompute : computeDiscountRial code subtotalRial =
      max 0 (Decimal.times precision (⌊Decimal.dividedBy precision x 10⌋ : ℤ) 10) := by
    rw [computeDiscountRial, hxe]
  rw [hcompute]
  obtain hneg | hpos := lt_or_ge ⌊Decimal.dividedBy precision x 10⌋ 0
  · refine ⟨0, ?_, le_rfl, hsubtotal⟩
    rw [Int.cast_zero, max_eq_left_iff]
    refine Decimal.sig_nonpos precision ?_
    have : (⌊Decimal.dividedBy precision x 10⌋ : ℚ) < 0 := by exact_mod_cast hneg
    linarith
  · have hle := ten_mul_floor_le hx hfits hpos
    generalize ⌊Decimal.dividedBy precision x 10⌋ = k at hle hpos ⊢
    have hexact : Decimal.times precision (k : ℚ) 10 = ((k * 10 : ℤ) : ℚ) := by
      rw [Decimal.times, show (k : ℚ) * 10 = ((k * 10 : ℤ) : ℚ) by push_cast; ring]
      exact Decimal.sig_intCast (by rw [precision, abs_lt]; omega)
    refine ⟨k * 10, ?_, by omega, hle⟩
    rw [hexact, max_eq_right]
    exact_mod_cast (by omega : 0 ≤ k * 10)

end DiscountService

theorem evaluate_amount {shop : Shop} {userId raw : String} {subtotalRial : ℤ}
    {evaluation : DiscountCode × ℚ}
    (h : DiscountService.evaluate shop userId raw subtotalRial = .ok evaluation) :
    evaluation.2 = DiscountService.computeDiscountRial evaluation.1 subtotalRial := by
  obtain ⟨code, -, h⟩ := bind_eq_ok.mp h
  obtain ⟨-, -, h⟩ := bind_eq_ok.mp h
  dsimp only at h
  split at h
  case isTrue => cases h
  case isFalse =>
    obtain rfl := Except.ok.inj h
    rfl

theorem discountFor_bounds {shop : Shop} {userId : String} {dto : CreateShopOrderDto}
    {subtotalRial : ℤ} {discount : Option String × ℚ} (hsubtotal : 0 ≤ subtotalRial)
    (hfits : subtotalRial < 10 ^ 18) (h : discountFor shop userId dto subtotalRial = .ok discount) :
    ∃ n : ℤ, discount.2 = n ∧ 0 ≤ n ∧ n ≤ subtotalRial := by
  unfold discountFor at h
  split at h
  · obtain ⟨evaluation, heval, h⟩ := bind_eq_ok.mp h
    obtain rfl := Except.ok.inj h
    rw [show (some evaluation.1.code, evaluation.2).2 = _ from evaluate_amount heval]
    exact DiscountService.computeDiscountRial_bounds evaluation.1 hsubtotal hfits
  · obtain rfl := Except.ok.inj h
    exact ⟨0, by simp, le_rfl, hsubtotal⟩

/-! ## The rows -/

theorem orderItemData_price {shop : Shop} {dto : CreateShopOrderDto} {items : List CartItem}
    {item : CartItem} {row : ShopOrderItem} (h : orderItemData shop dto items item = .ok row) :
    0 < row.priceRial := by
  unfold orderItemData at h
  simp only [bind, Except.bind, throw, throwThe, MonadExceptOf.throw, pure, Except.pure] at h
  split at h
  · cases h
  · rename_i hprice
    split at h
    · split at h
      · split at h
        · cases h
        · obtain rfl := Except.ok.inj h
          exact not_le.mp hprice
      · cases h
    · split at h
      · obtain rfl := Except.ok.inj h
        exact not_le.mp hprice
      · cases h

theorem packagingInput_eq {shop : Shop} {item : CartItem} {input : ℕ × Option PackagingOption × ℕ}
    (h : packagingInput shop item = .ok input) :
    input = (item.id, PackagingService.pick (optionsFor shop item) item.packagingOptionId,
      item.quantity) := by
  unfold packagingInput at h
  simp only [bind, Except.bind, throw, throwThe, MonadExceptOf.throw, pure, Except.pure] at h
  split at h
  · cases h
  · exact (Except.ok.inj h).symm

/-- The packaging of a row of an order: none, or one that is charged at its price or not at all. -/
inductive Packed (it : ShopOrderItem) : Prop where
  | none : it.packagingName = none → it.packagingRial = 0 → Packed it
  | some (name : String) (unitPriceRial : ℤ) : it.packagingName = some name →
      it.packagingUnitPriceRial = some unitPriceRial → 0 < it.packagingQuantity →
      0 ≤ it.packagingRial → Packed it

theorem Packed.charged_nonneg {it : ShopOrderItem} (h : Packed it) : 0 ≤ it.packagingRial := by
  cases h with
  | none _ hzero => exact hzero.ge
  | some _ _ _ _ _ hnonneg => exact hnonneg

namespace PackagingService

theorem chargeOf_spec (subtotal threshold : ℤ) (option : PackagingOption) (quantity : ℕ) :
    0 < (chargeOf subtotal threshold option quantity).packagingQuantity ∧
      0 ≤ (chargeOf subtotal threshold option quantity).chargedRial := by
  constructor
  · simp only [chargeOf]
    split <;> omega
  · have hwaived (free : Bool) {listRial : ℤ} (h : 0 ≤ listRial) :
        0 ≤ if free then 0 else listRial := by
      split
      · rfl
      · exact h
    exact hwaived _ (by positivity)

/-- The charge of a row, where its product has packaging. -/
def chargeFor (shop : Shop) (subtotal : ℤ) (item : CartItem) : Option PackagingCharge :=
  (pick (optionsFor shop item) item.packagingOptionId).map fun o =>
    chargeOf subtotal shop.globalThresholdRial o item.quantity

variable {shop : Shop} {subtotal : ℤ}

/-- The lines of the packaging of a cart. -/
def linesFor (shop : Shop) (subtotal : ℤ) (items : List CartItem) : List (ℕ × PackagingCharge) :=
  items.filterMap fun item => (chargeFor shop subtotal item).map fun c => (item.id, c)

theorem computeCharges_lines {items : List CartItem}
    {inputs : List (ℕ × Option PackagingOption × ℕ)}
    (h : items.mapM (packagingInput shop) = .ok inputs) :
    (computeCharges inputs subtotal shop.globalThresholdRial).lines =
      linesFor shop subtotal items := by
  have hinputs := mapM_eq_ok h
  clear h
  unfold computeCharges linesFor
  induction hinputs with
  | nil => rfl
  | cons hitem hrest ih =>
    obtain rfl := packagingInput_eq hitem
    simp only [List.filterMap_cons, chargeFor, Option.map_map, Function.comp_def] at ih ⊢
    rw [ih]

theorem lookup_linesFor {items : List CartItem} (hids : (items.map (·.id)).Nodup)
    {item : CartItem} (hitem : item ∈ items) :
    (linesFor shop subtotal items).lookup item.id = chargeFor shop subtotal item := by
  have hother {items : List CartItem} {id : ℕ} (h : id ∉ items.map (·.id)) :
      (linesFor shop subtotal items).lookup id = none := by
    rw [List.lookup_eq_none_iff]
    rintro ⟨key, charge⟩ hl
    obtain ⟨other, hmem, heq⟩ := List.mem_filterMap.mp hl
    obtain ⟨c, -, hpair⟩ := Option.map_eq_some_iff.mp heq
    obtain ⟨rfl, rfl⟩ := Prod.mk.inj hpair
    have hne : id ≠ other.id := by
      rintro rfl
      exact h (List.mem_map_of_mem hmem)
    simpa using hne
  induction items with
  | nil => exact absurd hitem (by simp)
  | cons first items ih =>
    rw [List.map_cons, List.nodup_cons] at hids
    obtain rfl | hitem := List.mem_cons.mp hitem
    · cases hcharge : chargeFor shop subtotal item with
      | none => simpa [linesFor, hcharge] using hother hids.1
      | some c => simp [linesFor, hcharge]
    · have hne : item.id ≠ first.id := by
        intro heq
        exact hids.1 (heq ▸ List.mem_map_of_mem hitem)
      rw [← ih hids.2 hitem]
      cases hcharge : chargeFor shop subtotal first with
      | none => simp [linesFor, hcharge]
      | some c => simp [linesFor, hcharge, List.lookup_cons, beq_eq_false_iff_ne.mpr hne]

theorem sum_linesFor (items : List CartItem) :
    ((linesFor shop subtotal items).map fun l => l.2.chargedRial).sum =
      (items.map fun item =>
        ((chargeFor shop subtotal item).map (·.chargedRial)).getD 0).sum := by
  unfold linesFor
  induction items with
  | nil => rfl
  | cons item items ih =>
    rw [List.filterMap_cons, List.map_cons, List.sum_cons, ← ih]
    cases chargeFor shop subtotal item with
    | none => simp
    | some c => simp

end PackagingService

theorem withPackaging_packed (row : ShopOrderItem) (shop : Shop) (subtotal : ℤ)
    (item : CartItem) :
    Packed (withPackaging row (PackagingService.chargeFor shop subtotal item)) := by
  unfold PackagingService.chargeFor
  cases PackagingService.pick (optionsFor shop item) item.packagingOptionId with
  | none => exact .none rfl rfl
  | some o =>
    obtain ⟨hquantity, hcharged⟩ :=
      PackagingService.chargeOf_spec subtotal shop.globalThresholdRial o item.quantity
    exact .some _ _ rfl rfl hquantity hcharged

/-! ## Shipping -/

theorem resolveShippingCharge_nonneg (option : ShippingOption) (wantsPayOnDelivery : Bool) :
    0 ≤ (ShippingService.resolveShippingCharge option wantsPayOnDelivery).shippingRial ∧
      0 ≤ (ShippingService.resolveShippingCharge option wantsPayOnDelivery).waivedRial := by
  unfold ShippingService.resolveShippingCharge
  split
  case isTrue => exact ⟨le_rfl, le_rfl⟩
  case isFalse hfee =>
    have hfee' : 0 ≤ option.feeRial := (not_le.mp hfee).le
    split
    · exact ⟨le_rfl, hfee'⟩
    · dsimp only
      split
      · exact ⟨le_rfl, le_rfl⟩
      · exact ⟨hfee', le_rfl⟩

theorem resolveForCheckout_nonneg {shop : Shop} {dto : CreateShopOrderDto} {items : List CartItem}
    {shipping : Option (String × ShippingService.ShippingCharge)}
    (h : ShippingService.resolveForCheckout shop dto items = .ok shipping) :
    ∀ s ∈ shipping, 0 ≤ s.2.shippingRial ∧ 0 ≤ s.2.waivedRial := by
  unfold ShippingService.resolveForCheckout at h
  simp only [bind, Except.bind, throw, throwThe, MonadExceptOf.throw, pure, Except.pure] at h
  split at h
  · obtain rfl := Except.ok.inj h
    simp
  · split at h
    · cases h
    · split at h
      · split at h
        · split at h
          · cases h
          · split at h
            · cases h
            · obtain rfl := Except.ok.inj h
              intro s hs
              obtain rfl := Option.some.inj hs
              exact resolveShippingCharge_nonneg ..
        · cases h
      · cases h

/-! ## The order -/

/-- How the amounts of an order hang together. -/
structure Charged (order : ShopOrder) : Prop where
  items_ne : order.items ≠ []
  price_pos : ∀ it ∈ order.items, 0 < it.priceRial
  subtotal : (order.items.map (·.lineRial)).sum = order.subtotalRial
  discount_nonneg : 0 ≤ order.discountRial
  discount_le : order.discountRial ≤ order.subtotalRial
  packed : ∀ it ∈ order.items, Packed it
  packaging : (order.items.map (·.packagingRial)).sum = order.packagingRial
  shipping_nonneg : 0 ≤ order.shippingRial
  waived_nonneg : 0 ≤ order.shippingWaivedRial
  unshipped : order.shippingMethodName = none → order.shippingRial = 0
  total : order.totalRial =
    order.subtotalRial - order.discountRial + order.packagingRial + order.shippingRial

/-- The rows of an order: those of the cart with their packaging. -/
structure Rows (shop : Shop) (subtotal : ℤ) (cart : List CartItem) (rows : List ShopOrderItem)
    (items : List ShopOrderItem) : Prop where
  length : items.length = cart.length
  price_pos : ∀ it ∈ items, 0 < it.priceRial
  lines : (items.map (·.lineRial)).sum = (rows.map (·.lineRial)).sum
  packed : ∀ it ∈ items, Packed it
  packaging : (items.map (·.packagingRial)).sum =
    ((PackagingService.linesFor shop subtotal cart).map fun l => l.2.chargedRial).sum

theorem rows_spec {shop : Shop} {dto : CreateShopOrderDto} {cart all : List CartItem}
    {rows : List ShopOrderItem} (subtotal : ℤ)
    (h : List.Forall₂ (fun item row => orderItemData shop dto all item = .ok row) cart rows) :
    Rows shop subtotal cart rows ((cart.zip rows).map fun r =>
      withPackaging r.2 (PackagingService.chargeFor shop subtotal r.1)) := by
  have hlength := h.length_eq
  refine ⟨?_, ?_, ?_, ?_, ?_⟩
  · rw [List.length_map, List.length_zip, hlength, min_self]
  · intro it hit
    obtain ⟨⟨item, row⟩, hmem, rfl⟩ := List.mem_map.mp hit
    have hprice : 0 < row.priceRial := orderItemData_price ((List.forall₂_iff_zip.mp h).2 hmem)
    exact hprice
  · rw [List.map_map]
    conv_rhs => rw [← List.map_snd_zip hlength.ge, List.map_map]
    rfl
  · intro it hit
    obtain ⟨⟨item, row⟩, -, rfl⟩ := List.mem_map.mp hit
    exact withPackaging_packed row shop subtotal item
  · rw [PackagingService.sum_linesFor, List.map_map]
    conv_rhs => rw [← List.map_fst_zip hlength.le, List.map_map]
    rfl

/-- A whole amount and a fee are rounded together as the fee is alone. -/
theorem column_total {whole : ℤ} {fee : ℚ} {total rounded : ℤ} (hwhole : 0 ≤ whole)
    (hfee : 0 ≤ fee) (htotal : column (whole + fee) = .ok total)
    (hrounded : column fee = .ok rounded) : total = whole + rounded ∧ 0 ≤ rounded := by
  have hwhole' : (0 : ℚ) ≤ whole := by exact_mod_cast hwhole
  rw [(column_eq_ok htotal).1, (column_eq_ok hrounded).1,
    roundHalfAway_int_add (by linarith), ← roundHalfAway_of_nonneg hfee]
  exact ⟨rfl, roundHalfAway_nonneg hfee⟩

theorem checkout_charged {shop : Shop} {userId : String} {dto : CreateShopOrderDto}
    {order : ShopOrder} (h : checkout shop userId dto = .ok order) : Charged order := by
  obtain ⟨cart, shipping, rows, discount, inputs, -, hcart, hshipping, hrows, hdiscount, hinputs,
    hcreate⟩ := checkout_cases h
  have hcharge : 0 ≤ (shippingChargeOf shipping).shippingRial ∧
      0 ≤ (shippingChargeOf shipping).waivedRial := by
    cases shipping with
    | none => exact ⟨le_rfl, le_rfl⟩
    | some s => exact resolveForCheckout_nonneg hshipping s rfl
  have hunshipped (hnone : shipping.map (·.1) = none) :
      (shippingChargeOf shipping).shippingRial = 0 := by
    rw [Option.map_eq_none_iff.mp hnone]
    rfl
  generalize hsubtotal : (rows.map (·.lineRial)).sum = subtotal at *
  have hlines := (@PackagingService.computeCharges_lines _ subtotal) hinputs
  have hcharged : (PackagingService.computeCharges inputs subtotal
      shop.globalThresholdRial).chargedRial = ((PackagingService.computeCharges inputs subtotal
        shop.globalThresholdRial).lines.map fun l => l.2.chargedRial).sum := rfl
  generalize PackagingService.computeCharges inputs subtotal shop.globalThresholdRial = packaging
    at hcreate hlines hcharged
  obtain ⟨n₁, h₁, hcreate⟩ := bind_eq_ok.mp hcreate
  obtain ⟨n₂, h₂, hcreate⟩ := bind_eq_ok.mp hcreate
  obtain ⟨n₃, h₃, hcreate⟩ := bind_eq_ok.mp hcreate
  obtain ⟨n₄, -, hcreate⟩ := bind_eq_ok.mp hcreate
  obtain ⟨n₅, h₅, hcreate⟩ := bind_eq_ok.mp hcreate
  obtain ⟨n₆, h₆, hcreate⟩ := bind_eq_ok.mp hcreate
  obtain ⟨estimate, -, hcreate⟩ := bind_eq_ok.mp hcreate
  obtain ⟨n₇, h₇, hcreate⟩ := bind_eq_ok.mp hcreate
  obtain rfl := Except.ok.inj hcreate
  have hitems : (cart.items.zip rows).map (fun r =>
        withPackaging r.2 (packaging.lines.lookup r.1.id)) =
      (cart.items.zip rows).map fun r =>
        withPackaging r.2 (PackagingService.chargeFor shop subtotal r.1) := by
    refine List.map_congr_left fun r hr => ?_
    rw [hlines, PackagingService.lookup_linesFor cart.ids_nodup (List.of_mem_zip hr).1]
  have hrow := rows_spec subtotal (mapM_eq_ok hrows)
  rw [← hitems] at hrow
  generalize (cart.items.zip rows).map (fun r =>
    withPackaging r.2 (packaging.lines.lookup r.1.id)) = items at hrow
  obtain ⟨hlength, hprice, hsum, hpacked, hpackaging⟩ := hrow
  rw [hsubtotal] at hsum
  rw [← hlines, ← hcharged] at hpackaging
  have hsubtotal0 : 0 ≤ subtotal := by
    rw [← hsum]
    refine List.sum_nonneg fun x hx => ?_
    obtain ⟨it, hit, rfl⟩ := List.mem_map.mp hx
    exact mul_nonneg (hprice it hit).le (Int.natCast_nonneg _)
  have hpackaging0 : 0 ≤ packaging.chargedRial := by
    rw [← hpackaging]
    refine List.sum_nonneg fun x hx => ?_
    obtain ⟨it, hit, rfl⟩ := List.mem_map.mp hx
    exact (hpacked it hit).charged_nonneg
  obtain ⟨n, hn, hn0, hnle⟩ := discountFor_bounds hsubtotal0
    ((le_abs_self _).trans_lt (column_int h₁ ▸ (column_eq_ok h₁).2)) hdiscount
  rw [hn] at h₂ h₇
  obtain rfl : n₁ = subtotal := column_int h₁
  obtain rfl : n₂ = n := column_int h₂
  obtain rfl : n₃ = packaging.chargedRial := column_int h₃
  have hwhole : ((n₁ - n₂ + packaging.chargedRial : ℤ) : ℚ) =
      (n₁ : ℚ) - n₂ + packaging.chargedRial := by push_cast; rfl
  rw [← hwhole] at h₇
  obtain ⟨htotal, hshipping0⟩ := column_total (by omega) hcharge.1 h₇ h₅
  have hitems_ne : items ≠ [] := by
    rintro rfl
    exact hcart (List.eq_nil_of_length_eq_zero hlength.symm)
  refine ⟨hitems_ne, hprice, hsum, hn0, hnle, hpacked, hpackaging, hshipping0, ?_, ?_, htotal⟩
  · rw [(column_eq_ok h₆).1]
    exact roundHalfAway_nonneg hcharge.2
  · intro hnone
    have hzero := h₅
    rw [hunshipped hnone] at hzero
    exact column_int (by simpa using hzero)

end ShopOrdersService

end ArkanGold
