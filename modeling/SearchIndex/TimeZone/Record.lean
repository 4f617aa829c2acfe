import SearchIndex.Calendar
import SearchIndex.TimeZone

/-!
# A recorded database of zones

For some zones of a place, the offsets from universal time that they have had and are
expected to have, in seconds east, and the changes from one to another. A zone with summer
time changes every year by the same rule from some year on, and until the end of 2099,
because no change is foreseen behind it.

`ZoneDatabase.recorded` knows these zones, universal time under its usual names, and
`Etc/GMT` followed by an offset, whose sign is inverted: `Etc/GMT+3` lies three hours west.
It is one database of many; what is proved of zones does not depend on it.
-/

namespace SearchIndex

/-- A change that takes place every year: some seconds after universal midnight of the
first Sunday that does not come before a day of a month. The offset that begins has a
place among those of its zone. -/
structure YearlyChange where
  month : Nat
  day : Nat
  seconds : Int
  place : Nat

/-- The instant of the change in a year, in seconds from the first of 1970. The fourth of
January 1970 was a Sunday. -/
def YearlyChange.instantIn (c : YearlyChange) (year : Nat) : Int :=
  let earliest := Date.toDays ⟨year, c.month, c.day⟩
  (earliest + (3 - earliest).fmod 7) * 86400 + c.seconds

example : YearlyChange.instantIn ⟨3, 25, 3600, 1⟩ 2024 = 1711846800 := by decide

/-- The record of a zone: its offsets, the first of which holds before any change, single
changes, ascending, each with the place of the offset that begins, and the yearly changes
behind them with the first year that has them. Instants of single changes are counted in
seconds from `ZoneRecord.epoch`. -/
structure ZoneRecord where
  offsets : List Int
  changes : List (Nat × Nat)
  firstYear : Nat := 0
  yearly : List YearlyChange := []

namespace ZoneRecord

/-- The first of 1840, in seconds from the first of 1970. No change precedes it. -/
def epoch : Int := -4102444800

/-- The last year that has yearly changes. -/
def lastYear : Nat := 2099

/-- All changes, ascending: their instants in seconds from the first of 1970, and the
places of the offsets that begin. -/
def allChanges (z : ZoneRecord) : List (Int × Nat) :=
  z.changes.map (fun (seconds, place) => (epoch + seconds, place)) ++
    (List.range (lastYear + 1 - z.firstYear)).flatMap (fun n =>
      z.yearly.map (fun c => (c.instantIn (z.firstYear + n), c.place)))

/-- The offset that holds at an instant, given in seconds from the first of 1970:
that of the last change not after it. -/
def offsetAt (z : ZoneRecord) (instant : Int) : Int :=
  let place := z.allChanges.foldl (fun p c => if c.1 ≤ instant then c.2 else p) 0
  z.offsets.getD place 0

/-- The record of a zone with one offset. -/
def fixed (offset : Int) : ZoneRecord := ⟨[offset], [], 0, []⟩

/-- The zone `Asia/Tokyo`. -/
def tokyo : ZoneRecord where
  offsets := [33539, 32400, 36000]
  changes :=
   [(1514732400, 1), (3418642800, 2), (3430134000, 1), (3447673200, 2), (3461583600, 1),
    (3482146800, 2), (3493033200, 1), (3513596400, 2), (3524482800, 1)]

/-- The zone `Asia/Kolkata`. -/
def kolkata : ZoneRecord where
  offsets := [21208, 21200, 19270, 19800, 23400]
  changes :=
   [(457207592, 1), (946750000, 2), (2082739130, 3), (3210863400, 4), (3230386200, 3),
    (3239807400, 4), (3338299800, 3)]

/-- The zone `Asia/Kathmandu`. -/
def kathmandu : ZoneRecord where
  offsets := [20476, 19800, 20700]
  changes :=
   [(2524501124, 1), (4607346600, 2)]

/-- The zone `Pacific/Apia`. -/
def apia : ZoneRecord where
  offsets := [45184, -41216, -41400, -39600, -36000, 50400, 46800]
  changes :=
   [(1657020416, 1), (2240566016, 2), (3471334200, 3), (5387943600, 4), (5404197600, 3),
    (5419317600, 4), (5427684000, 5), (5435647200, 6), (5451372000, 5), (5467701600, 6),
    (5482821600, 5), (5499151200, 6), (5514271200, 5), (5530600800, 6), (5545720800, 5),
    (5562050400, 6), (5577170400, 5), (5593500000, 6), (5608620000, 5), (5624949600, 6),
    (5640674400, 5), (5657004000, 6), (5672124000, 5), (5688453600, 6), (5703573600, 5),
    (5719903200, 6)]

/-- The zone `Africa/Casablanca`. -/
def casablanca : ZoneRecord where
  offsets := [-1820, 0, 3600]
  changes :=
   [(2329432220, 1), (3146083200, 2), (3151954800, 1), (3160425600, 2), (3341257200, 1),
    (3485203200, 2), (3497295600, 1), (4021012800, 2), (4031334000, 1), (4243708800, 2),
    (4249666800, 1), (4302201600, 2), (4310146800, 1), (4333737600, 2), (4346694000, 1),
    (4367952000, 2), (4373478000, 1), (4550688000, 2), (4607362800, 1), (5314723200, 2),
    (5322668400, 1), (5346259200, 2), (5353254000, 1), (5375203200, 2), (5383666800, 1),
    (5404233600, 2), (5414511600, 1), (5438109600, 2), (5445194400, 1), (5447872800, 2),
    (5451415200, 1), (5469559200, 2), (5475607200, 1), (5478544800, 2), (5485284000, 1),
    (5498589600, 2), (5506365600, 1), (5509389600, 2), (5516733600, 1), (5530039200, 2),
    (5536692000, 1), (5539716000, 2), (5548183200, 1), (5561488800, 2), (5567536800, 1),
    (5570560800, 2), (5580237600, 1), (5592938400, 2), (5597776800, 1), (5601405600, 2),
    (5611687200, 1), (5624388000, 2), (5628621600, 1), (5631645600, 2), (5659466400, 1),
    (5662490400, 2), (5689706400, 1), (5693335200, 2), (5720551200, 1), (5723575200, 2),
    (5750791200, 1), (5754420000, 2), (5781636000, 1), (5784660000, 2), (5812480800, 1),
    (5815504800, 2), (5842720800, 1), (5846349600, 2), (5873565600, 1), (5876589600, 2),
    (5904410400, 1), (5907434400, 2), (5934650400, 1), (5938279200, 2), (5965495200, 1),
    (5968519200, 2), (5995735200, 1), (5999364000, 2), (6026580000, 1), (6029604000, 2),
    (6057424800, 1), (6060448800, 2), (6087664800, 1), (6091293600, 2), (6118509600, 1),
    (6121533600, 2), (6148749600, 1), (6152378400, 2), (6179594400, 1), (6183223200, 2),
    (6210439200, 1), (6213463200, 2), (6240679200, 1), (6244308000, 2), (6271524000, 1),
    (6274548000, 2), (6302368800, 1), (6305392800, 2), (6332608800, 1), (6336237600, 2),
    (6363453600, 1), (6366477600, 2), (6393693600, 1), (6397322400, 2), (6424538400, 1),
    (6428167200, 2), (6455383200, 1), (6458407200, 2), (6485623200, 1), (6489252000, 2),
    (6516468000, 1), (6519492000, 2), (6547312800, 1), (6550336800, 2), (6577552800, 1),
    (6581181600, 2), (6608397600, 1), (6611421600, 2), (6638637600, 1), (6642266400, 2),
    (6669482400, 1), (6673111200, 2), (6700327200, 1), (6703351200, 2), (6730567200, 1),
    (6734196000, 2), (6761412000, 1), (6764436000, 2), (6792256800, 1), (6795280800, 2),
    (6822496800, 1), (6826125600, 2), (6853341600, 1), (6856365600, 2), (6883581600, 1),
    (6887210400, 2), (6914426400, 1), (6918055200, 2), (6945271200, 1), (6948295200, 2),
    (6975511200, 1), (6979140000, 2), (7006356000, 1), (7009380000, 2), (7037200800, 1),
    (7040224800, 2), (7067440800, 1), (7071069600, 2), (7098285600, 1), (7101309600, 2),
    (7128525600, 1), (7132154400, 2), (7159370400, 1), (7162999200, 2), (7190215200, 1),
    (7193239200, 2), (7220455200, 1), (7224084000, 2), (7251300000, 1), (7254324000, 2),
    (7282144800, 1), (7285168800, 2), (7312384800, 1), (7316013600, 2), (7343229600, 1),
    (7346253600, 2), (7373469600, 1), (7377098400, 2), (7404314400, 1), (7407943200, 2),
    (7435159200, 1), (7438183200, 2), (7465399200, 1), (7469028000, 2), (7496244000, 1),
    (7499268000, 2), (7527088800, 1), (7530112800, 2), (7557328800, 1), (7560957600, 2),
    (7588173600, 1), (7591197600, 2), (7618413600, 1), (7622042400, 2), (7649258400, 1),
    (7652282400, 2), (7680103200, 1), (7683127200, 2), (7710343200, 1), (7713972000, 2),
    (7741188000, 1), (7744212000, 2), (7772032800, 1), (7775056800, 2), (7802272800, 1),
    (7805901600, 2)]

/-- The zone `Europe/Oslo`. -/
def oslo : ZoneRecord where
  offsets := [3208, 3600, 7200, 10800]
  changes :=
   [(1680390392, 1), (2408738400, 2), (2421961200, 1), (2438989200, 2), (2452294800, 1),
    (2470438800, 2), (2483744400, 1), (3163539600, 2), (3245187600, 1), (3257888400, 2),
    (3274218000, 1), (3289942800, 2), (3305667600, 1), (3321392400, 2), (3325881600, 3),
    (3336508800, 2), (3341264400, 1), (3353965200, 2), (3369171600, 1), (3384813600, 2),
    (3387834000, 3), (3392064000, 2), (3400534800, 1), (3417469200, 2), (3431984400, 1),
    (3448314000, 2), (3463434000, 1), (4426275600, 2), (4441395600, 1), (4457120400, 2),
    (4472845200, 1), (4488570000, 2), (4504294800, 1), (4520019600, 2), (4535744400, 1),
    (4551469200, 2), (4567798800, 1), (4583523600, 2), (4599248400, 1), (4614973200, 2),
    (4630698000, 1), (4646422800, 2), (4662147600, 1), (4677872400, 2), (4693597200, 1),
    (4709322000, 2), (4725046800, 1), (4740771600, 2), (4757101200, 1), (4772826000, 2),
    (4788550800, 1), (4804275600, 2), (4820000400, 1), (4835725200, 2), (4851450000, 1),
    (4867174800, 2), (4882899600, 1), (4898624400, 2), (4914349200, 1)]
  firstYear := 1996
  yearly := [⟨3, 25, 3600, 2⟩, ⟨10, 25, 3600, 1⟩]

/-- The zone `Europe/London`. -/
def london : ZoneRecord where
  offsets := [-75, 0, 3600, 7200]
  changes :=
   [(249782475, 1), (2410480800, 2), (2421972000, 1), (2438301600, 2), (2452298400, 1),
    (2468541600, 2), (2484957600, 1), (2500596000, 2), (2516407200, 1), (2532045600, 2),
    (2550276000, 1), (2564100000, 2), (2579911200, 1), (2594944800, 2), (2611879200, 1),
    (2628813600, 2), (2641514400, 1), (2659658400, 2), (2673568800, 1), (2691712800, 2),
    (2706228000, 1), (2723162400, 2), (2737677600, 1), (2754007200, 2), (2769127200, 1),
    (2786666400, 2), (2801181600, 1), (2818116000, 2), (2832631200, 1), (2848960800, 2),
    (2864080800, 1), (2881015200, 2), (2895530400, 1), (2912464800, 2), (2926980000, 1),
    (2943309600, 2), (2959034400, 1), (2975968800, 2), (2990484000, 1), (3006813600, 2),
    (3021933600, 1), (3038868000, 2), (3053383200, 1), (3070317600, 2), (3084832800, 1),
    (3101162400, 2), (3116282400, 1), (3133216800, 2), (3151965600, 1), (3160432800, 2),
    (3197926800, 3), (3206394000, 2), (3226957200, 3), (3237843600, 2), (3258406800, 3),
    (3269898000, 2), (3289856400, 3), (3304371600, 2), (3321392400, 3), (3330378000, 2),
    (3337639200, 1), (3353968800, 2), (3369088800, 1), (3382999200, 2), (3385414800, 3),
    (3395696400, 2), (3402957600, 1), (3414448800, 2), (3434407200, 1), (3447712800, 2),
    (3465856800, 1), (3480372000, 2), (3496701600, 1), (3511821600, 2), (3528151200, 1),
    (3543876000, 2), (3560205600, 1), (3575325600, 2), (3589840800, 1), (3606170400, 2),
    (3621290400, 1), (3638224800, 2), (3652740000, 1), (3670279200, 2), (3684794400, 1),
    (3701124000, 2), (3716244000, 1), (3733178400, 2), (3747693600, 1), (3764628000, 2),
    (3779143200, 1), (3795472800, 2), (3810592800, 1), (3825712800, 2), (3844461600, 1),
    (3857162400, 2), (3875911200, 1), (3889216800, 2), (3907360800, 1), (3920061600, 2),
    (3938810400, 1), (3951511200, 2), (3970260000, 1), (3982960800, 2), (4001709600, 1),
    (4014410400, 2), (4033764000, 1), (4043440800, 2), (4160167200, 1), (4172263200, 2),
    (4191616800, 1), (4203712800, 2), (4223066400, 1), (4235162400, 2), (4254516000, 1),
    (4266612000, 2), (4285965600, 1), (4298666400, 2), (4317415200, 1), (4330116000, 2),
    (4348864800, 1), (4361565600, 2), (4380919200, 1), (4393015200, 2), (4412368800, 1),
    (4424464800, 2), (4443818400, 1), (4457120400, 2), (4475264400, 1), (4488570000, 2),
    (4506714000, 1), (4520019600, 2), (4538163600, 1), (4551469200, 2), (4570218000, 1),
    (4583523600, 2), (4601667600, 1), (4614973200, 2), (4633117200, 1), (4646422800, 2),
    (4664566800, 1), (4677872400, 2), (4696016400, 1), (4709322000, 2), (4728070800, 1),
    (4740771600, 2), (4759520400, 1), (4772826000, 2), (4790970000, 1), (4804275600, 2),
    (4822419600, 1), (4835725200, 2), (4853869200, 1), (4867174800, 2), (4885318800, 1),
    (4898624400, 2), (4916768400, 1)]
  firstYear := 1996
  yearly := [⟨3, 25, 3600, 2⟩, ⟨10, 25, 3600, 1⟩]

/-- The zone `America/New_York`. -/
def newYork : ZoneRecord where
  offsets := [-17762, -18000, -14400]
  changes :=
   [(1384794000, 1), (2469164400, 2), (2487304800, 1), (2500614000, 2), (2518754400, 1),
    (2532063600, 2), (2550808800, 1), (2565932400, 2), (2579234400, 1), (2597986800, 2),
    (2610684000, 1), (2629436400, 2), (2642738400, 1), (2660886000, 2), (2674188000, 1),
    (2692335600, 2), (2705637600, 1), (2723785200, 2), (2737087200, 1), (2755234800, 2),
    (2768536800, 1), (2787289200, 2), (2800591200, 1), (2818738800, 2), (2832040800, 1),
    (2850188400, 2), (2863490400, 1), (2881638000, 2), (2894940000, 1), (2913087600, 2),
    (2926389600, 1), (2945142000, 2), (2957839200, 1), (2976591600, 2), (2989893600, 1),
    (3008041200, 2), (3021343200, 1), (3039490800, 2), (3052792800, 1), (3070940400, 2),
    (3084242400, 1), (3102390000, 2), (3115692000, 1), (3134444400, 2), (3147141600, 1),
    (3165894000, 2), (3179196000, 1), (3197343600, 2), (3210645600, 1), (3222226800, 2),
    (3337048800, 1), (3355196400, 2), (3368498400, 1), (3386646000, 2), (3399948000, 1),
    (3418095600, 2), (3431397600, 1), (3449545200, 2), (3462847200, 1), (3481599600, 2),
    (3494296800, 1), (3513049200, 2), (3526351200, 1), (3544498800, 2), (3557800800, 1),
    (3575948400, 2), (3589250400, 1), (3607398000, 2), (3620700000, 1), (3638847600, 2),
    (3655173600, 1), (3670902000, 2), (3686623200, 1), (3702351600, 2), (3718072800, 1),
    (3733801200, 2), (3749522400, 1), (3765250800, 2), (3780972000, 1), (3796700400, 2),
    (3813026400, 1), (3828754800, 2), (3844476000, 1), (3860204400, 2), (3875925600, 1),
    (3891654000, 2), (3907375200, 1), (3923103600, 2), (3938824800, 1), (3954553200, 2),
    (3970879200, 1), (3986002800, 2), (4002328800, 1), (4018057200, 2), (4033778400, 1),
    (4049506800, 2), (4065228000, 1), (4080956400, 2), (4096677600, 1), (4112406000, 2),
    (4128127200, 1), (4143855600, 2), (4160181600, 1), (4175910000, 2), (4191631200, 1),
    (4207359600, 2), (4223080800, 1), (4229132400, 2), (4254530400, 1), (4264815600, 2),
    (4285980000, 1), (4301708400, 2), (4318034400, 1), (4333158000, 2), (4349484000, 1),
    (4365212400, 2), (4380933600, 1), (4396662000, 2), (4412383200, 1), (4428111600, 2),
    (4443832800, 1), (4459561200, 2), (4475282400, 1), (4491010800, 2), (4507336800, 1),
    (4522460400, 2), (4538786400, 1), (4554514800, 2), (4570236000, 1), (4585964400, 2),
    (4601685600, 1), (4617414000, 2), (4633135200, 1), (4647049200, 2), (4664584800, 1),
    (4678498800, 2), (4696639200, 1), (4709948400, 2), (4728088800, 1), (4741398000, 2),
    (4759538400, 1), (4773452400, 2), (4790988000, 1), (4804902000, 2), (4822437600, 1),
    (4836351600, 2), (4854492000, 1), (4867801200, 2), (4885941600, 1), (4899250800, 2),
    (4917391200, 1), (4931305200, 2), (4948840800, 1), (4962754800, 2), (4980290400, 1),
    (4994204400, 2), (5011740000, 1), (5025654000, 2), (5043794400, 1), (5057103600, 2),
    (5075244000, 1), (5088553200, 2), (5106693600, 1), (5120607600, 2), (5138143200, 1),
    (5152057200, 2), (5169592800, 1), (5183506800, 2), (5201647200, 1), (5214956400, 2),
    (5233096800, 1), (5246406000, 2), (5264546400, 1)]
  firstYear := 2007
  yearly := [⟨3, 8, 25200, 2⟩, ⟨11, 1, 21600, 1⟩]

/-- The zone `America/St_Johns`. -/
def stJohns : ZoneRecord where
  offsets := [-12652, -9052, -12600, -9000, -5400]
  changes :=
   [(2438314252, 1), (2452307452, 0), (2470368652, 1), (2487299452, 0), (2503794652, 1),
    (2512344652, 0), (2535157852, 1), (2550879052, 0), (2566607452, 1), (2582328652, 0),
    (2598661852, 1), (2613778252, 0), (2630111452, 1), (2645227852, 0), (2661561052, 1),
    (2676677452, 0), (2693010652, 1), (2708127052, 0), (2724460252, 1), (2740181452, 0),
    (2755909852, 1), (2771631052, 0), (2787964252, 1), (2803080652, 0), (2819413852, 1),
    (2834530252, 0), (2850863452, 1), (2865979852, 0), (2882313052, 1), (2897429452, 0),
    (2913762652, 1), (2929483852, 0), (2945817052, 1), (2960933452, 0), (2977266652, 1),
    (2992383052, 0), (3005523052, 2), (3008716200, 3), (3023832600, 2), (3040774200, 3),
    (3053471400, 2), (3072223800, 3), (3084921000, 2), (3103673400, 3), (3116370600, 2),
    (3135727800, 3), (3147820200, 2), (3167177400, 3), (3179874600, 2), (3198627000, 3),
    (3211324200, 2), (3230076600, 3), (3337043400, 2), (3356400600, 3), (3369097800, 2),
    (3387850200, 3), (3400547400, 2), (3419299800, 3), (3431997000, 2), (3450749400, 3),
    (3463446600, 2), (3482803800, 3), (3495501000, 2), (3513043800, 3), (3526345800, 2),
    (3544493400, 3), (3557795400, 2), (3575943000, 3), (3589245000, 2), (3607392600, 3),
    (3620694600, 2), (3638842200, 3), (3652144200, 2), (3670896600, 3), (3684198600, 2),
    (3702346200, 3), (3715648200, 2), (3733795800, 3), (3747097800, 2), (3765245400, 3),
    (3778547400, 2), (3796695000, 3), (3813021000, 2), (3828749400, 3), (3844470600, 2),
    (3860199000, 3), (3875920200, 2), (3891648600, 3), (3907369800, 2), (3923098200, 3),
    (3938819400, 2), (3954547800, 3), (3970873800, 2), (3985997400, 3), (4002323400, 2),
    (4018051800, 3), (4033773000, 2), (4049501400, 3), (4065222600, 2), (4080951000, 3),
    (4096672200, 2), (4112400600, 3), (4128121800, 2), (4143850200, 3), (4160176200, 2),
    (4175904600, 3), (4191625800, 2), (4207354200, 3), (4223075400, 2), (4238803800, 3),
    (4254525000, 2), (4270253400, 3), (4285974600, 2), (4301703000, 3), (4318029000, 2),
    (4333152600, 3), (4349478600, 2), (4365207000, 3), (4380928200, 2), (4396656600, 3),
    (4412377800, 2), (4428106200, 3), (4443827400, 2), (4459555800, 3), (4475277000, 2),
    (4491005400, 3), (4507331400, 2), (4522455000, 3), (4538781000, 2), (4554509400, 3),
    (4570230600, 2), (4585959000, 3), (4601680200, 2), (4617408600, 3), (4633129800, 2),
    (4647036660, 3), (4664572260, 2), (4678486260, 4), (4696623060, 2), (4709935860, 3),
    (4728076260, 2), (4741385460, 3), (4759525860, 2), (4773439860, 3), (4790975460, 2),
    (4804889460, 3), (4822425060, 2), (4836339060, 3), (4854479460, 2), (4867788660, 3),
    (4885929060, 2), (4899238260, 3), (4917378660, 2), (4931292660, 3), (4948828260, 2),
    (4962742260, 3), (4980277860, 2), (4994191860, 3), (5011727460, 2), (5025641460, 3),
    (5043781860, 2), (5057091060, 3), (5075231460, 2), (5088540660, 3), (5106681060, 2),
    (5120595060, 3), (5138130660, 2), (5152044660, 3), (5169580260, 2), (5183494260, 3),
    (5201634660, 2), (5214943860, 3), (5233084260, 2), (5246393460, 3), (5264533860, 2),
    (5276028660, 3), (5296588260, 2), (5307478260, 3), (5328037860, 2), (5338927860, 3),
    (5359487460, 2), (5370982260, 3), (5391541860, 2), (5402431860, 3), (5422998600, 2)]
  firstYear := 2012
  yearly := [⟨3, 8, 19800, 3⟩, ⟨11, 1, 16200, 2⟩]

/-- The zone `America/Santiago`. -/
def santiago : ZoneRecord where
  offsets := [-16965, -18000, -14400, -10800]
  changes :=
   [(2209783365, 1), (2414034000, 0), (2483239365, 2), (2508638400, 0), (2766458565, 2),
    (2784859200, 1), (2798082000, 2), (2816395200, 1), (2829618000, 2), (2847931200, 1),
    (2861154000, 2), (2879467200, 1), (2892690000, 2), (2911089600, 1), (2924312400, 2),
    (3231892800, 1), (3237166800, 2), (3361924800, 3), (3365809200, 2), (3384388800, 1),
    (3388795200, 2), (4065825600, 3), (4078522800, 2), (4099089600, 3), (4109972400, 2),
    (4126910400, 3), (4140212400, 2), (4158360000, 3), (4171662000, 2), (4190414400, 3),
    (4203111600, 2), (4220654400, 3), (4234561200, 2), (4253313600, 3), (4266010800, 2),
    (4284763200, 3), (4298065200, 2), (4316212800, 3), (4329514800, 2), (4347662400, 3),
    (4360964400, 2), (4379716800, 3), (4392414000, 2), (4411166400, 3), (4423863600, 2),
    (4442616000, 3), (4455918000, 2), (4474065600, 3), (4487367600, 2), (4505515200, 3),
    (4518817200, 2), (4536964800, 3), (4550266800, 2), (4569019200, 3), (4581716400, 2),
    (4600468800, 3), (4613166000, 2), (4631918400, 3), (4647639600, 2), (4663368000, 3),
    (4676670000, 2), (4694817600, 3), (4708119600, 2), (4726872000, 3), (4739569200, 2),
    (4755902400, 3), (4771018800, 2), (4789771200, 3), (4803073200, 2), (4821220800, 3),
    (4834522800, 2), (4852670400, 3), (4865972400, 2), (4884120000, 3), (4897422000, 2),
    (4916174400, 3), (4928871600, 2), (4947624000, 3), (4962135600, 2), (4979073600, 3),
    (4992375600, 2), (5009313600, 3), (5025639600, 2), (5041972800, 3), (5055274800, 2),
    (5074027200, 3), (5086724400, 2), (5105476800, 3), (5118174000, 2), (5136926400, 3),
    (5149623600, 2), (5168376000, 3), (5181678000, 2), (5199825600, 3), (5213127600, 2),
    (5231275200, 3), (5244577200, 2), (5263329600, 3), (5276026800, 2), (5294779200, 3),
    (5309290800, 2), (5326228800, 3), (5339530800, 2), (5357678400, 3), (5372794800, 2),
    (5389128000, 3), (5407268400, 2), (5416344000, 3), (5438113200, 2), (5449003200, 3),
    (5469562800, 2), (5481057600, 3), (5501012400, 2), (5512507200, 3), (5565726000, 2),
    (5573592000, 3), (5597175600, 2), (5605041600, 3), (5628625200, 2), (5636491200, 3),
    (5657050800, 2), (5670360000, 3), (5688500400, 2), (5701809600, 3), (5719950000, 2),
    (5733259200, 3), (5751399600, 2), (5765313600, 3)]
  firstYear := 2023
  yearly := [⟨4, 2, 10800, 2⟩, ⟨9, 2, 14400, 3⟩]

/-- The zone `Australia/Lord_Howe`. -/
def lordHowe : ZoneRecord where
  offsets := [38180, 36000, 37800, 41400, 39600]
  changes :=
   [(1738329820, 1), (4454661600, 2), (4475230200, 3), (4486717800, 2), (4507284600, 3),
    (4518167400, 2), (4538734200, 3), (4549617000, 2), (4570183800, 3), (4581066600, 2),
    (4601633400, 4), (4613727600, 2), (4632478200, 4), (4645177200, 2), (4664532600, 4),
    (4677231600, 2), (4696587000, 4), (4708681200, 2), (4728036600, 4), (4738921200, 2),
    (4759486200, 4), (4770370800, 2), (4790935800, 4), (4801820400, 2), (4822385400, 4),
    (4833874800, 2), (4854439800, 4), (4865324400, 2), (4885889400, 4), (4896774000, 2),
    (4917339000, 4), (4930642800, 2), (4948788600, 4), (4962092400, 2), (4980238200, 4),
    (4993542000, 2), (5011687800, 4), (5024991600, 2), (5043742200, 4), (5056441200, 2),
    (5069748600, 4), (5087890800, 2), (5106641400, 4), (5119945200, 2), (5138091000, 4),
    (5151394800, 2), (5169540600, 4), (5182844400, 2), (5201595000, 4), (5214294000, 2),
    (5233044600, 4), (5246348400, 2), (5264494200, 4), (5277193200, 2), (5295943800, 4)]
  firstYear := 2008
  yearly := [⟨4, 1, -32400, 2⟩, ⟨10, 1, -30600, 4⟩]

/-- The zones of places, by name. -/
def places : List (String × ZoneRecord) :=
  [("Asia/Tokyo", tokyo),
   ("Asia/Kolkata", kolkata),
   ("Asia/Kathmandu", kathmandu),
   ("Pacific/Apia", apia),
   ("Africa/Casablanca", casablanca),
   ("Europe/Oslo", oslo),
   ("Europe/London", london),
   ("America/New_York", newYork),
   ("America/St_Johns", stJohns),
   ("America/Santiago", santiago),
   ("Australia/Lord_Howe", lordHowe)]

/-- The hours that the offset in a name `Etc/GMT…` writes, with its sign; a number
has no zero in front. -/
def etcHours? (cs : List Char) : Option Int :=
  match cs with
  | [] => some 0
  | ['0'] => some 0
  | sign :: digits =>
    if sign ≠ '+' ∧ sign ≠ '-' then none
    else
      let hours := (List.range 15).find? (fun h => Nat.toDigits 10 h == digits)
      match hours with
      | none => none
      | some h =>
        if sign = '-' then some (-(h : Int))
        else if h ≤ 12 then some h else none

/-- The record of a zone name. -/
def ofName? (name : String) : Option ZoneRecord :=
  if name = "UTC" ∨ name = "Etc/UTC" ∨ name = "GMT" then some (fixed 0)
  else if "Etc/GMT".toList.isPrefixOf name.toList then
    (etcHours? (name.toList.drop 7)).map (fun hours => fixed (-hours * 3600))
  else places.lookup name

end ZoneRecord

/-- The zones of which there are records. -/
def ZoneDatabase.recorded : ZoneDatabase where
  offsetAt? name := (ZoneRecord.ofName? name).map ZoneRecord.offsetAt

end SearchIndex
