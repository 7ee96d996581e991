import EasyTrade.Offers.Aggregator

/-!
# The filters of a platform

The offer service filters as the query says, but the aggregator adds its filters to a copy
of the query.  A platform therefore gets what its filters admit only when there is nothing
to leave out.
-/

namespace EasyTrade.Offers

section Filters

variable {runtime : Runtime}

/-! ## The offer service's end -/

/-- Once the query has been parsed there is an answer, with the lists that it keeps. -/
theorem getOffers_of_parsed (req : Request) {productFilter : ProductFilter}
    (hparsed : parsedProductFilter runtime req.url.query = some productFilter)
    (packages : List Package) (products : List Product) :
    ∃ body data, getOffers runtime (some packages) (some products) req = some ⟨200, body⟩ ∧
      (body = .json data ∨ body = .xml data) ∧
      data.products = products.filter productFilter.keeps ∧
      data.packages = packages.filter (maxYearlyFeeFilter runtime req.url.query).keeps := by
  let data : OfferData :=
    { platform := "EasyTrade"
      quoteFor := req.url.platform
      packages := filterPackages packages (maxYearlyFeeFilter runtime req.url.query)
      products := filterProducts products productFilter }
  have hanswer : getOffers runtime (some packages) (some products) req = some
      ⟨200, if req.accept.any xmlMimeTypes.contains then .xml data else .json data⟩ := by
    rw [getOffers, hparsed]
    rfl
  refine ⟨_, data, hanswer, ?_, filterProducts_eq _ _, filterPackages_eq _ _⟩
  split
  · exact Or.inr rfl
  · exact Or.inl rfl

theorem keeps_of_productNames {config : PlatformConfig}
    (restriction : Restriction runtime config) :
    (ProductFilter.mk restriction.productNames).keeps = restriction.admitsProduct := rfl

theorem keeps_of_maxYearlyFee {config : PlatformConfig}
    (restriction : Restriction runtime config) :
    (PackageFilter.mk (restriction.maxYearlyFee.map some)).keeps = restriction.admitsPackage := by
  funext package
  unfold PackageFilter.keeps Restriction.admitsPackage
  cases restriction.maxYearlyFee <;> rfl

/-- A request whose query carries both filters is answered with what they admit. -/
theorem getOffers_of_query {config : PlatformConfig} (restriction : Restriction runtime config)
    {req : Request} {names : List String} {fee : ℚ}
    (hnames : restriction.productNames = some names) (hfee : restriction.maxYearlyFee = some fee)
    (hquery : req.url.query = [("productFilter", config.filter),
      ("maxYearlyFeeFilter", runtime.sprint config.maxFee)])
    (hnumber : runtime.number (runtime.sprint config.maxFee) = some config.maxFee)
    (packages : List Package) (products : List Product) :
    ∃ body data, getOffers runtime (some packages) (some products) req = some ⟨200, body⟩ ∧
      (body = .json data ∨ body = .xml data) ∧
      data.products = products.filter restriction.admitsProduct ∧
      data.packages = packages.filter restriction.admitsPackage := by
  have hparsed : parsedProductFilter runtime req.url.query = some ⟨restriction.productNames⟩ := by
    rw [hquery, hnames]
    simp only [parsedProductFilter, Query.parameter, List.find?_cons_of_pos, decide_true,
      Option.map_some, restriction.parse_filter names hnames]
  have hmaxFee : maxYearlyFeeFilter runtime req.url.query =
      ⟨restriction.maxYearlyFee.map some⟩ := by
    rw [hquery, hfee, Option.map_some, ← restriction.maxFee_eq fee hfee, ← hnumber]
    rfl
  have hanswer := getOffers_of_parsed req hparsed packages products
  rw [hmaxFee, keeps_of_productNames, keeps_of_maxYearlyFee] at hanswer
  exact hanswer

/-! ## The aggregator's end -/

theorem offersRequest_eq (runtime : Runtime) (platformName productFilter : String) (fee : ℚ)
    (mimeType : MimeType) : offersRequest runtime platformName productFilter fee mimeType =
      (runtime.url platformName).map fun url => ⟨url, some mimeType.text⟩ := by
  unfold offersRequest
  cases runtime.url platformName <;> rfl

/-- Platforms that differ in their filters only make the same requests. -/
theorem offersRequest_ignores_filters (runtime : Runtime) (platformName filter other : String)
    (fee otherFee : ℚ) (mimeType : MimeType) :
    offersRequest runtime platformName filter fee mimeType =
      offersRequest runtime platformName other otherFee mimeType := by
  rw [offersRequest_eq, offersRequest_eq]

def formatOf (useXml : Bool) : MimeType := if useXml then .xml else .json

theorem provided_of_checkOffers {p : Platform} {answer : Request → Option (Response × ℤ)}
    {useXml : Bool} {offer : Offer} (hoffer : (p.CheckOffers runtime answer useXml).1 = .ok offer) :
    ∃ requestDuration, connectorGetOffers runtime answer p.name p.filter p.maxFee
      (formatOf useXml) = .ok ⟨offer, requestDuration⟩ := by
  unfold Platform.CheckOffers at hoffer
  rw [show (if useXml then MimeType.xml else MimeType.json) = formatOf useXml from rfl] at hoffer
  split at hoffer
  case h_1 error herror => cases hoffer
  case h_2 offerResult hresult =>
    dsimp only at hoffer
    generalize (if p.requestTimeLimit ≤ offerResult.requestDuration then
      p.consecutiveFailCounter + 1 else 0) = counter at hoffer
    split at hoffer
    · cases hoffer
    · cases hoffer
      exact ⟨offerResult.requestDuration, hresult⟩

theorem parsed_of_connectorGetOffers {answer : Request → Option (Response × ℤ)}
    {platformName productFilter : String} {fee : ℚ} {mimeType : MimeType} {offer : Offer}
    {requestDuration : ℤ} (hresult : connectorGetOffers runtime answer platformName productFilter
      fee mimeType = .ok ⟨offer, requestDuration⟩) :
    ∃ url resp, runtime.url platformName = some url ∧
      answer ⟨url, some mimeType.text⟩ = some (resp, requestDuration) ∧
        parseResponse runtime resp.body mimeType = .ok offer := by
  unfold connectorGetOffers at hresult
  rw [offersRequest_eq] at hresult
  cases hurl : runtime.url platformName with
  | none =>
    rw [hurl] at hresult
    cases hresult
  | some url =>
    rw [hurl] at hresult
    dsimp only [Option.map_some] at hresult
    cases hanswer : answer ⟨url, some mimeType.text⟩ with
    | none =>
      rw [hanswer] at hresult
      cases hresult
    | some answered =>
      obtain ⟨resp, duration⟩ := answered
      rw [hanswer] at hresult
      dsimp only at hresult
      split at hresult
      · cases hresult
      · cases hparse : parseResponse runtime resp.body mimeType with
        | error error =>
          rw [hparse] at hresult
          cases hresult
        | ok parsed =>
          rw [hparse] at hresult
          cases hresult
          exact ⟨url, resp, rfl, hanswer, hparse⟩

/-! ## Both ends -/

/-- The lists of an offer that has been read are those of the response. -/
theorem lists_of_parseResponse {body : Body} {data : OfferData} {mimeType : MimeType}
    {offer : Offer} (hbody : body = .json data ∨ body = .xml data)
    (hparse : parseResponse runtime body mimeType = .ok offer) :
    offer.products = data.products.map (mimeType.offerProduct runtime) ∧
      offer.packages = data.packages.map (mimeType.offerPackage runtime) := by
  rcases hbody with rfl | rfl <;> cases mimeType
  case inl.json =>
    cases hparse
    exact ⟨rfl, rfl⟩
  case inl.xml => cases hparse
  case inr.json => cases hparse
  case inr.xml =>
    rw [parseResponse] at hparse
    split at hparse
    · cases hparse
      exact ⟨rfl, rfl⟩
    · cases hparse

/-- An offer holds what the query of the platform's own URL keeps. -/
theorem lists_of_checkOffers {p : Platform} {catalogue : Catalogue} {duration : Option ℤ}
    {useXml : Bool} {offer : Offer}
    (hoffer : (p.CheckOffers runtime (catalogue.answer runtime duration) useXml).1 = .ok offer) :
    ∃ url productFilter, runtime.url p.name = some url ∧
      parsedProductFilter runtime url.query = some productFilter ∧
      offer.products = (catalogue.products.rows.filter productFilter.keeps).map
        ((formatOf useXml).offerProduct runtime) ∧
      offer.packages = (catalogue.packages.rows.filter
        (maxYearlyFeeFilter runtime url.query).keeps).map
          ((formatOf useXml).offerPackage runtime) := by
  obtain ⟨requestDuration, hresult⟩ := provided_of_checkOffers hoffer
  obtain ⟨url, resp, hurl, hanswer, hparse⟩ := parsed_of_connectorGetOffers hresult
  unfold Catalogue.answer at hanswer
  obtain ⟨answered, -, hanswer⟩ := Option.bind_eq_some_iff.mp hanswer
  obtain ⟨response, hresponse, hanswer⟩ := Option.bind_eq_some_iff.mp hanswer
  cases hanswer
  cases hproductFilter : parsedProductFilter runtime url.query with
  | none =>
    rw [getOffers, hproductFilter] at hresponse
    cases hresponse
  | some productFilter =>
    obtain ⟨body, data, hbody, hformat, hproducts, hpackages⟩ :=
      getOffers_of_parsed ⟨url, some (formatOf useXml).text⟩ hproductFilter
        catalogue.packages.rows catalogue.products.rows
    rw [hbody] at hresponse
    cases hresponse
    obtain ⟨hofferProducts, hofferPackages⟩ := lists_of_parseResponse hformat hparse
    refine ⟨url, productFilter, hurl, hproductFilter, ?_, ?_⟩
    · rw [hofferProducts, hproducts]
    · rw [hofferPackages, hpackages]

/-- Rows with different keys are kept by the same conditions when the kept rows look alike. -/
theorem filter_map_eq_iff {α β : Type} {key : α → ℤ} (table : Table key) {look : α → β}
    (keyOf : β → ℤ) (hkey : ∀ row, keyOf (look row) = key row) (p q : α → Bool) :
    (table.rows.filter p).map look = (table.rows.filter q).map look ↔
      ∀ row ∈ table.rows, p row = q row := by
  have hsame : ∀ {p q : α → Bool},
      (table.rows.filter p).map look = (table.rows.filter q).map look →
        ∀ row ∈ table.rows, p row = true → q row = true := by
    intro p q hlook row hrow hp
    have hkept : look row ∈ (table.rows.filter q).map look := by
      rw [← hlook]
      exact List.mem_map_of_mem (List.mem_filter.mpr ⟨hrow, hp⟩)
    obtain ⟨other, hother, heq⟩ := List.mem_map.mp hkept
    obtain ⟨hmem, hq⟩ := List.mem_filter.mp hother
    have hkeys : key other = key row := by rw [← hkey, heq, hkey]
    rwa [List.inj_on_of_nodup_map table.keysNodup hmem hrow hkeys] at hq
  constructor
  · intro hlook row hrow
    exact Bool.eq_iff_iff.mpr ⟨hsame hlook row hrow, hsame hlook.symm row hrow⟩
  · intro hall
    rw [List.filter_congr hall]

/-- The query keeps of the catalogue what the configured filters admit. -/
def KeepsAsConfigured {config : PlatformConfig} (restriction : Restriction runtime config)
    (catalogue : Catalogue) (query : Query) : Prop :=
  (∀ filter ∈ parsedProductFilter runtime query, ∀ product ∈ catalogue.products.rows,
    filter.keeps product = restriction.admitsProduct product) ∧
  ∀ package ∈ catalogue.packages.rows,
    (maxYearlyFeeFilter runtime query).keeps package = restriction.admitsPackage package

/-- A platform's offer holds what its filters admit exactly when the query that its name
puts into the URL keeps the same, for no other query is sent. -/
theorem offer_described_iff {p : Platform}
    (restriction : Restriction runtime p.toPlatformConfig) {catalogue : Catalogue}
    {duration : Option ℤ} {useXml : Bool} {offer : Offer}
    (hoffer : (p.CheckOffers runtime (catalogue.answer runtime duration) useXml).1 = .ok offer) :
    restriction.Describes catalogue (formatOf useXml) offer ↔
      ∀ url ∈ runtime.url p.name, KeepsAsConfigured restriction catalogue url.query := by
  obtain ⟨url, productFilter, hurl, hparsed, hproducts, hpackages⟩ := lists_of_checkOffers hoffer
  have hquery : (∀ url ∈ runtime.url p.name, KeepsAsConfigured restriction catalogue url.query) ↔
      (∀ product ∈ catalogue.products.rows,
        productFilter.keeps product = restriction.admitsProduct product) ∧
      ∀ package ∈ catalogue.packages.rows, (maxYearlyFeeFilter runtime url.query).keeps package =
        restriction.admitsPackage package := by
    rw [hurl]
    constructor
    · intro hall
      obtain ⟨hkept, hfee⟩ := hall url rfl
      exact ⟨hkept productFilter hparsed, hfee⟩
    · intro hkept other hother
      cases hother
      refine ⟨fun filter hfilter => ?_, hkept.2⟩
      cases hparsed.symm.trans hfilter
      exact hkept.1
  have hproductsIff := filter_map_eq_iff catalogue.products Product.id
    (fun product => (rfl : ((formatOf useXml).offerProduct runtime product).id = product.id))
    productFilter.keeps restriction.admitsProduct
  have hpackagesIff := filter_map_eq_iff catalogue.packages Package.id
    (fun package => (rfl : ((formatOf useXml).offerPackage runtime package).id = package.id))
    (maxYearlyFeeFilter runtime url.query).keeps restriction.admitsPackage
  rw [hquery, ← hproductsIff, ← hpackagesIff]
  constructor
  · intro hdescribes
    exact ⟨hproducts.symm.trans hdescribes.products, hpackages.symm.trans hdescribes.packages⟩
  · intro hlists
    exact ⟨hproducts.trans hlists.1, hpackages.trans hlists.2⟩

/-- Without a query in the name nothing may be left to filter out. -/
theorem keepsAsConfigured_nil_iff {config : PlatformConfig}
    (restriction : Restriction runtime config) (catalogue : Catalogue) :
    KeepsAsConfigured restriction catalogue [] ↔
      (∀ product ∈ catalogue.products.rows, restriction.admitsProduct product = true) ∧
        ∀ package ∈ catalogue.packages.rows, restriction.admitsPackage package = true := by
  constructor
  · rintro ⟨hproducts, hpackages⟩
    exact ⟨fun product hproduct => (hproducts ⟨none⟩ rfl product hproduct).symm,
      fun package hpackage => (hpackages package hpackage).symm⟩
  · rintro ⟨hproducts, hpackages⟩
    refine ⟨fun filter hfilter product hproduct => ?_, fun package hpackage =>
      (hpackages package hpackage).symm⟩
    cases hfilter
    exact (hproducts product hproduct).symm

end Filters

/-! ## A platform for crypto -/

namespace Sample

def runtime : Runtime where
  url := fun name => some ⟨name, []⟩
  sprint := fun x => toString x
  float32 := id
  parse := fun text => if text = "[\"Crypto\"]" then some ["Crypto"] else none
  number := fun text => text.toNat?.map fun n => (n : ℚ)

def share : Product := ⟨1, "Share", 11 / 2, "EUR"⟩

def crypto : Product := ⟨2, "Crypto", 11 / 2, "EUR"⟩

/-- The manager sells the given products, and one package that costs nothing. -/
def catalogue (products : Table Product.id) : Catalogue where
  packages := ⟨[⟨1, "Starter", 0, "Email"⟩], List.nodup_singleton _⟩
  products := products

def cryptoOnly : Table Product.id := ⟨[crypto], List.nodup_singleton _⟩

def shareAndCrypto : Table Product.id := ⟨[share, crypto], by decide⟩

def platform : Platform where
  name := "CryptoTrading.com"
  filter := "[\"Crypto\"]"
  maxFee := 0
  requestTimeLimit := 1000
  consecutiveFailLimit := 50
  consecutiveFailCounter := 0

def restriction : Restriction runtime platform.toPlatformConfig where
  productNames := some ["Crypto"]
  maxYearlyFee := none
  parse_filter := fun names hnames => by
    cases hnames
    rfl
  maxFee_eq := fun fee hfee => nomatch hfee

/-- Everything the manager sells. -/
def offer (products : List Product) : Offer where
  platform := "EasyTrade"
  quoteFor := "CryptoTrading.com"
  packages := [⟨1, "Starter", 0, "Email"⟩]
  products := products

theorem checkOffers (products : Table Product.id) :
    (platform.CheckOffers runtime ((catalogue products).answer runtime (some 3)) false).1 =
      .ok (offer (products.rows.map (MimeType.json.offerProduct runtime))) := rfl

end Sample

theorem offer_described_iff_cryptoOnly :
    (Sample.platform.CheckOffers Sample.runtime
        ((Sample.catalogue Sample.cryptoOnly).answer Sample.runtime (some 3)) false).1 =
          .ok (Sample.offer [Sample.crypto]) ∧
      Sample.restriction.Describes (Sample.catalogue Sample.cryptoOnly) .json
        (Sample.offer [Sample.crypto]) := by
  have hoffer := Sample.checkOffers Sample.cryptoOnly
  refine ⟨hoffer, (offer_described_iff Sample.restriction hoffer).mpr fun url hurl => ?_⟩
  cases hurl
  rw [keepsAsConfigured_nil_iff]
  exact ⟨by decide, fun package _ => rfl⟩

/-- A platform for crypto is offered shares as well. -/
theorem offer_not_described :
    ¬ ∀ (catalogue : Catalogue) (offer : Offer),
      (Sample.platform.CheckOffers Sample.runtime (catalogue.answer Sample.runtime (some 3))
        false).1 = .ok offer → Sample.restriction.Describes catalogue .json offer := by
  intro hall
  have hdescribes := hall (Sample.catalogue Sample.shareAndCrypto)
    (Sample.offer [Sample.share, Sample.crypto]) rfl
  have hproducts : [Sample.share, Sample.crypto] = [Sample.crypto] := hdescribes.products
  exact absurd (congrArg List.length hproducts) (by decide)

end EasyTrade.Offers
