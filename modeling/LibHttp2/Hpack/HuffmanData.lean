import LibHttp2.Basic

/-!
# The Huffman decoding table

`huff_decode_table` of `huffman_data.cc`: for each state and each half byte the next state and the
symbol emitted. A row is one hexadecimal number of sixteen entries, the first entry in the highest
digits; an entry is four digits of `fstate` and two digits of `sym`.
-/

namespace LibHttp2.Hpack

/-- An entry of the decoding table. -/
structure Http2HuffDecode where
  fstate : ℕ
  sym : UInt8
  deriving DecidableEq, Repr

def huffDecodeRows : List ℕ := [
 0x000400000500000700000800000b00000c00001000001300001900001c00002000002300002a00003100003900404000,
 0xc00030c00031c00032c00061c00063c00065c00069c0006fc00073c00074000d00000e00001100001200001400001500,
 0x800130c01630800131c01631800132c01632800161c01661800163c01663800165c01665800169c0166980016fc0166f,
 0x800230800930801730c02830800231800931801731c02831800232800932801732c02832800261800961801761c02861,
 0x800330800630800a30800f30801830801f30802930c03830800331800631800a31800f31801831801f31802931c03831,
 0x800332800632800a32800f32801832801f32802932c03832800361800661800a61800f61801861801f61802961c03861,
 0x800263800963801763c02863800265800965801765c02865800269800969801769c0286980026f80096f80176fc0286f,
 0x800363800663800a63800f63801863801f63802963c03863800365800665800a65800f65801865801f65802965c03865,
 0x800369800669800a69800f69801869801f69802969c0386980036f80066f800a6f800f6f80186f801f6f80296fc0386f,
 0x800173c01673800174c01674c00020c00025c0002dc0002ec0002fc00033c00034c00035c00036c00037c00038c00039,
 0x800273800973801773c02873800274800974801774c02874800120c01620800125c0162580012dc0162d80012ec0162e,
 0x800373800673800a73800f73801873801f73802973c03873800374800674800a74800f74801874801f74802974c03874,
 0x800220800920801720c02820800225800925801725c0282580022d80092d80172dc0282d80022e80092e80172ec0282e,
 0x800320800620800a20800f20801820801f20802920c03820800325800625800a25800f25801825801f25802925c03825,
 0x80032d80062d800a2d800f2d80182d801f2d80292dc0382d80032e80062e800a2e800f2e80182e801f2e80292ec0382e,
 0x80012fc0162f800133c01633800134c01634800135c01635800136c01636800137c01637800138c01638800139c01639,
 0x80022f80092f80172fc0282f800233800933801733c02833800234800934801734c02834800235800935801735c02835,
 0x80032f80062f800a2f800f2f80182f801f2f80292fc0382f800333800633800a33800f33801833801f33802933c03833,
 0x800334800634800a34800f34801834801f34802934c03834800335800635800a35800f35801835801f35802935c03835,
 0x800236800936801736c02836800237800937801737c02837800238800938801738c02838800239800939801739c02839,
 0x800336800636800a36800f36801836801f36802936c03836800337800637800a37800f37801837801f37802937c03837,
 0x800338800638800a38800f38801838801f38802938c03838800339800639800a39800f39801839801f39802939c03839,
 0x001a00001b00001d00001e00002100002200002400002500002b00002e00003200003500003a00003d00004100404400,
 0xc0003dc00041c0005fc00062c00064c00066c00067c00068c0006cc0006dc0006ec00070c00072c00075002600002700,
 0x80013dc0163d800141c0164180015fc0165f800162c01662800164c01664800166c01666800167c01667800168c01668,
 0x80023d80093d80173dc0283d800241800941801741c0284180025f80095f80175fc0285f800262800962801762c02862,
 0x80033d80063d800a3d800f3d80183d801f3d80293dc0383d800341800641800a41800f41801841801f41802941c03841,
 0x80035f80065f800a5f800f5f80185f801f5f80295fc0385f800362800662800a62800f62801862801f62802962c03862,
 0x800264800964801764c02864800266800966801766c02866800267800967801767c02867800268800968801768c02868,
 0x800364800664800a64800f64801864801f64802964c03864800366800666800a66800f66801866801f66802966c03866,
 0x800367800667800a67800f67801867801f67802967c03867800368800668800a68800f68801868801f68802968c03868,
 0x80016cc0166c80016dc0166d80016ec0166e800170c01670800172c01672800175c01675c0003ac00042c00043c00044,
 0x80026c80096c80176cc0286c80026d80096d80176dc0286d80026e80096e80176ec0286e800270800970801770c02870,
 0x80036c80066c800a6c800f6c80186c801f6c80296cc0386c80036d80066d800a6d800f6d80186d801f6d80296dc0386d,
 0x80036e80066e800a6e800f6e80186e801f6e80296ec0386e800370800670800a70800f70801870801f70802970c03870,
 0x800272800972801772c02872800275800975801775c0287580013ac0163a800142c01642800143c01643800144c01644,
 0x800372800672800a72800f72801872801f72802972c03872800375800675800a75800f75801875801f75802975c03875,
 0x80023a80093a80173ac0283a800242800942801742c02842800243800943801743c02843800244800944801744c02844,
 0x80033a80063a800a3a800f3a80183a801f3a80293ac0383a800342800642800a42800f42801842801f42802942c03842,
 0x800343800643800a43800f43801843801f43802943c03843800344800644800a44800f44801844801f44802944c03844,
 0x002c00002d00002f00003000003300003400003600003700003b00003c00003e00003f00004200004300004500404800,
 0xc00045c00046c00047c00048c00049c0004ac0004bc0004cc0004dc0004ec0004fc00050c00051c00052c00053c00054,
 0x800145c01645800146c01646800147c01647800148c01648800149c0164980014ac0164a80014bc0164b80014cc0164c,
 0x800245800945801745c02845800246800946801746c02846800247800947801747c02847800248800948801748c02848,
 0x800345800645800a45800f45801845801f45802945c03845800346800646800a46800f46801846801f46802946c03846,
 0x800347800647800a47800f47801847801f47802947c03847800348800648800a48800f48801848801f48802948c03848,
 0x800249800949801749c0284980024a80094a80174ac0284a80024b80094b80174bc0284b80024c80094c80174cc0284c,
 0x800349800649800a49800f49801849801f49802949c0384980034a80064a800a4a800f4a80184a801f4a80294ac0384a,
 0x80034b80064b800a4b800f4b80184b801f4b80294bc0384b80034c80064c800a4c800f4c80184c801f4c80294cc0384c,
 0x80014dc0164d80014ec0164e80014fc0164f800150c01650800151c01651800152c01652800153c01653800154c01654,
 0x80024d80094d80174dc0284d80024e80094e80174ec0284e80024f80094f80174fc0284f800250800950801750c02850,
 0x80034d80064d800a4d800f4d80184d801f4d80294dc0384d80034e80064e800a4e800f4e80184e801f4e80294ec0384e,
 0x80034f80064f800a4f800f4f80184f801f4f80294fc0384f800350800650800a50800f50801850801f50802950c03850,
 0x800251800951801751c02851800252800952801752c02852800253800953801753c02853800254800954801754c02854,
 0x800351800651800a51800f51801851801f51802951c03851800352800652800a52800f52801852801f52802952c03852,
 0x800353800653800a53800f53801853801f53802953c03853800354800654800a54800f54801854801f54802954c03854,
 0xc00055c00056c00057c00059c0006ac0006bc00071c00076c00077c00078c00079c0007a004600004700004900404a00,
 0x800155c01655800156c01656800157c01657800159c0165980016ac0166a80016bc0166b800171c01671800176c01676,
 0x800255800955801755c02855800256800956801756c02856800257800957801757c02857800259800959801759c02859,
 0x800355800655800a55800f55801855801f55802955c03855800356800656800a56800f56801856801f56802956c03856,
 0x800357800657800a57800f57801857801f57802957c03857800359800659800a59800f59801859801f59802959c03859,
 0x80026a80096a80176ac0286a80026b80096b80176bc0286b800271800971801771c02871800276800976801776c02876,
 0x80036a80066a800a6a800f6a80186a801f6a80296ac0386a80036b80066b800a6b800f6b80186b801f6b80296bc0386b,
 0x800371800671800a71800f71801871801f71802971c03871800376800676800a76800f76801876801f76802976c03876,
 0x800177c01677800178c01678800179c0167980017ac0167ac00026c0002ac0002cc0003bc00058c0005a004b00004e00,
 0x800277800977801777c02877800278800978801778c02878800279800979801779c0287980027a80097a80177ac0287a,
 0x800377800677800a77800f77801877801f77802977c03877800378800678800a78800f78801878801f78802978c03878,
 0x800379800679800a79800f79801879801f79802979c0387980037a80067a800a7a800f7a80187a801f7a80297ac0387a,
 0x800126c0162680012ac0162a80012cc0162c80013bc0163b800158c0165880015ac0165a004c00004d00004f00005100,
 0x800226800926801726c0282680022a80092a80172ac0282a80022c80092c80172cc0282c80023b80093b80173bc0283b,
 0x800326800626800a26800f26801826801f26802926c0382680032a80062a800a2a800f2a80182a801f2a80292ac0382a,
 0x80032c80062c800a2c800f2c80182c801f2c80292cc0382c80033b80063b800a3b800f3b80183b801f3b80293bc0383b,
 0x800258800958801758c0285880025a80095a80175ac0285ac00021c00022c00028c00029c0003f005000005200005400,
 0x800358800658800a58800f58801858801f58802958c0385880035a80065a800a5a800f5a80185a801f5a80295ac0385a,
 0x800121c01621800122c01622800128c01628800129c0162980013fc0163fc00027c0002bc0007c005300005500005800,
 0x800221800921801721c02821800222800922801722c02822800228800928801728c02828800229800929801729c02829,
 0x800321800621800a21800f21801821801f21802921c03821800322800622800a22800f22801822801f22802922c03822,
 0x800328800628800a28800f28801828801f28802928c03828800329800629800a29800f29801829801f29802929c03829,
 0x80023f80093f80173fc0283f800127c0162780012bc0162b80017cc0167cc00023c0003e005600005700005900005a00,
 0x80033f80063f800a3f800f3f80183f801f3f80293fc0383f800227800927801727c0282780022b80092b80172bc0282b,
 0x800327800627800a27800f27801827801f27802927c0382780032b80062b800a2b800f2b80182b801f2b80292bc0382b,
 0x80027c80097c80177cc0287c800123c0162380013ec0163ec00000c00024c00040c0005bc0005dc0007e005b00005c00,
 0x80037c80067c800a7c800f7c80187c801f7c80297cc0387c800223800923801723c0282380023e80093e80173ec0283e,
 0x800323800623800a23800f23801823801f23802923c0382380033e80063e800a3e800f3e80183e801f3e80293ec0383e,
 0x800100c01600800124c01624800140c0164080015bc0165b80015dc0165d80017ec0167ec0005ec0007d005d00005e00,
 0x800200800900801700c02800800224800924801724c02824800240800940801740c0284080025b80095b80175bc0285b,
 0x800300800600800a00800f00801800801f00802900c03800800324800624800a24800f24801824801f24802924c03824,
 0x800340800640800a40800f40801840801f40802940c0384080035b80065b800a5b800f5b80185b801f5b80295bc0385b,
 0x80025d80095d80175dc0285d80027e80097e80177ec0287e80015ec0165e80017dc0167dc0003cc00060c0007b005f00,
 0x80035d80065d800a5d800f5d80185d801f5d80295dc0385d80037e80067e800a7e800f7e80187e801f7e80297ec0387e,
 0x80025e80095e80175ec0285e80027d80097d80177dc0287d80013cc0163c800160c0166080017bc0167b006000006e00,
 0x80035e80065e800a5e800f5e80185e801f5e80295ec0385e80037d80067d800a7d800f7d80187d801f7d80297dc0387d,
 0x80023c80093c80173cc0283c800260800960801760c0286080027b80097b80177bc0287b006100006500006f00008500,
 0x80033c80063c800a3c800f3c80183c801f3c80293cc0383c800360800660800a60800f60801860801f60802960c03860,
 0x80037b80067b800a7b800f7b80187b801f7b80297bc0387b006200006300006600006900007000007700008600009900,
 0xc0005cc000c3c000d0006400006700006800006a00006b00007100007400007800007e00008700008e00009a0000a900,
 0x80015cc0165c8001c3c016c38001d0c016d0c00080c00082c00083c000a2c000b8c000c2c000e0c000e2006c00006d00,
 0x80025c80095c80175cc0285c8002c38009c38017c3c028c38002d08009d08017d0c028d0800180c01680800182c01682,
 0x80035c80065c800a5c800f5c80185c801f5c80295cc0385c8003c38006c3800ac3800fc38018c3801fc38029c3c038c3,
 0x8003d08006d0800ad0800fd08018d0801fd08029d0c038d0800280800980801780c02880800282800982801782c02882,
 0x800380800680800a80800f80801880801f80802980c03880800382800682800a82800f82801882801f82802982c03882,
 0x800183c016838001a2c016a28001b8c016b88001c2c016c28001e0c016e08001e2c016e2c00099c000a1c000a7c000ac,
 0x800283800983801783c028838002a28009a28017a2c028a28002b88009b88017b8c028b88002c28009c28017c2c028c2,
 0x800383800683800a83800f83801883801f83802983c038838003a28006a2800aa2800fa28018a2801fa28029a2c038a2,
 0x8003b88006b8800ab8800fb88018b8801fb88029b8c038b88003c28006c2800ac2800fc28018c2801fc28029c2c038c2,
 0x8002e08009e08017e0c028e08002e28009e28017e2c028e2800199c016998001a1c016a18001a7c016a78001acc016ac,
 0x8003e08006e0800ae0800fe08018e0801fe08029e0c038e08003e28006e2800ae2800fe28018e2801fe28029e2c038e2,
 0x800299800999801799c028998002a18009a18017a1c028a18002a78009a78017a7c028a78002ac8009ac8017acc028ac,
 0x800399800699800a99800f99801899801f99802999c038998003a18006a1800aa1800fa18018a1801fa18029a1c038a1,
 0x8003a78006a7800aa7800fa78018a7801fa78029a7c038a78003ac8006ac800aac800fac8018ac801fac8029acc038ac,
 0x007200007300007500007600007900007b00007f00008200008800008b00008f00009200009b0000a20000aa0000b400,
 0xc000b0c000b1c000b3c000d1c000d8c000d9c000e3c000e5c000e6007a00007c00007d00008000008100008300008400,
 0x8001b0c016b08001b1c016b18001b3c016b38001d1c016d18001d8c016d88001d9c016d98001e3c016e38001e5c016e5,
 0x8002b08009b08017b0c028b08002b18009b18017b1c028b18002b38009b38017b3c028b38002d18009d18017d1c028d1,
 0x8003b08006b0800ab0800fb08018b0801fb08029b0c038b08003b18006b1800ab1800fb18018b1801fb18029b1c038b1,
 0x8003b38006b3800ab3800fb38018b3801fb38029b3c038b38003d18006d1800ad1800fd18018d1801fd18029d1c038d1,
 0x8002d88009d88017d8c028d88002d98009d98017d9c028d98002e38009e38017e3c028e38002e58009e58017e5c028e5,
 0x8003d88006d8800ad8800fd88018d8801fd88029d8c038d88003d98006d9800ad9800fd98018d9801fd98029d9c038d9,
 0x8003e38006e3800ae3800fe38018e3801fe38029e3c038e38003e58006e5800ae5800fe58018e5801fe58029e5c038e5,
 0x8001e6c016e6c00081c00084c00085c00086c00088c00092c0009ac0009cc000a0c000a3c000a4c000a9c000aac000ad,
 0x8002e68009e68017e6c028e6800181c01681800184c01684800185c01685800186c01686800188c01688800192c01692,
 0x8003e68006e6800ae6800fe68018e6801fe68029e6c038e6800281800981801781c02881800284800984801784c02884,
 0x800381800681800a81800f81801881801f81802981c03881800384800684800a84800f84801884801f84802984c03884,
 0x800285800985801785c02885800286800986801786c02886800288800988801788c02888800292800992801792c02892,
 0x800385800685800a85800f85801885801f85802985c03885800386800686800a86800f86801886801f86802986c03886,
 0x800388800688800a88800f88801888801f88802988c03888800392800692800a92800f92801892801f92802992c03892,
 0x80019ac0169a80019cc0169c8001a0c016a08001a3c016a38001a4c016a48001a9c016a98001aac016aa8001adc016ad,
 0x80029a80099a80179ac0289a80029c80099c80179cc0289c8002a08009a08017a0c028a08002a38009a38017a3c028a3,
 0x80039a80069a800a9a800f9a80189a801f9a80299ac0389a80039c80069c800a9c800f9c80189c801f9c80299cc0389c,
 0x8003a08006a0800aa0800fa08018a0801fa08029a0c038a08003a38006a3800aa3800fa38018a3801fa38029a3c038a3,
 0x8002a48009a48017a4c028a48002a98009a98017a9c028a98002aa8009aa8017aac028aa8002ad8009ad8017adc028ad,
 0x8003a48006a4800aa4800fa48018a4801fa48029a4c038a48003a98006a9800aa9800fa98018a9801fa98029a9c038a9,
 0x8003aa8006aa800aaa800faa8018aa801faa8029aac038aa8003ad8006ad800aad800fad8018ad801fad8029adc038ad,
 0x008900008a00008c00008d00009000009100009300009600009c00009f0000a30000a60000ab0000ae0000b50000be00,
 0xc000b2c000b5c000b9c000bac000bbc000bdc000bec000c4c000c6c000e4c000e8c000e9009400009500009700009800,
 0x8001b2c016b28001b5c016b58001b9c016b98001bac016ba8001bbc016bb8001bdc016bd8001bec016be8001c4c016c4,
 0x8002b28009b28017b2c028b28002b58009b58017b5c028b58002b98009b98017b9c028b98002ba8009ba8017bac028ba,
 0x8003b28006b2800ab2800fb28018b2801fb28029b2c038b28003b58006b5800ab5800fb58018b5801fb58029b5c038b5,
 0x8003b98006b9800ab9800fb98018b9801fb98029b9c038b98003ba8006ba800aba800fba8018ba801fba8029bac038ba,
 0x8002bb8009bb8017bbc028bb8002bd8009bd8017bdc028bd8002be8009be8017bec028be8002c48009c48017c4c028c4,
 0x8003bb8006bb800abb800fbb8018bb801fbb8029bbc038bb8003bd8006bd800abd800fbd8018bd801fbd8029bdc038bd,
 0x8003be8006be800abe800fbe8018be801fbe8029bec038be8003c48006c4800ac4800fc48018c4801fc48029c4c038c4,
 0x8001c6c016c68001e4c016e48001e8c016e88001e9c016e9c00001c00087c00089c0008ac0008bc0008cc0008dc0008f,
 0x8002c68009c68017c6c028c68002e48009e48017e4c028e48002e88009e88017e8c028e88002e98009e98017e9c028e9,
 0x8003c68006c6800ac6800fc68018c6801fc68029c6c038c68003e48006e4800ae4800fe48018e4801fe48029e4c038e4,
 0x8003e88006e8800ae8800fe88018e8801fe88029e8c038e88003e98006e9800ae9800fe98018e9801fe98029e9c038e9,
 0x800101c01601800187c01687800189c0168980018ac0168a80018bc0168b80018cc0168c80018dc0168d80018fc0168f,
 0x800201800901801701c02801800287800987801787c02887800289800989801789c0288980028a80098a80178ac0288a,
 0x800301800601800a01800f01801801801f01802901c03801800387800687800a87800f87801887801f87802987c03887,
 0x800389800689800a89800f89801889801f89802989c0388980038a80068a800a8a800f8a80188a801f8a80298ac0388a,
 0x80028b80098b80178bc0288b80028c80098c80178cc0288c80028d80098d80178dc0288d80028f80098f80178fc0288f,
 0x80038b80068b800a8b800f8b80188b801f8b80298bc0388b80038c80068c800a8c800f8c80188c801f8c80298cc0388c,
 0x80038d80068d800a8d800f8d80188d801f8d80298dc0388d80038f80068f800a8f800f8f80188f801f8f80298fc0388f,
 0x009d00009e0000a00000a10000a40000a50000a70000a80000ac0000ad0000af0000b10000b60000b90000bf0000cf00,
 0xc00093c00095c00096c00097c00098c0009bc0009dc0009ec000a5c000a6c000a8c000aec000afc000b4c000b6c000b7,
 0x800193c01693800195c01695800196c01696800197c01697800198c0169880019bc0169b80019dc0169d80019ec0169e,
 0x800293800993801793c02893800295800995801795c02895800296800996801796c02896800297800997801797c02897,
 0x800393800693800a93800f93801893801f93802993c03893800395800695800a95800f95801895801f95802995c03895,
 0x800396800696800a96800f96801896801f96802996c03896800397800697800a97800f97801897801f97802997c03897,
 0x800298800998801798c0289880029b80099b80179bc0289b80029d80099d80179dc0289d80029e80099e80179ec0289e,
 0x800398800698800a98800f98801898801f98802998c0389880039b80069b800a9b800f9b80189b801f9b80299bc0389b,
 0x80039d80069d800a9d800f9d80189d801f9d80299dc0389d80039e80069e800a9e800f9e80189e801f9e80299ec0389e,
 0x8001a5c016a58001a6c016a68001a8c016a88001aec016ae8001afc016af8001b4c016b48001b6c016b68001b7c016b7,
 0x8002a58009a58017a5c028a58002a68009a68017a6c028a68002a88009a88017a8c028a88002ae8009ae8017aec028ae,
 0x8003a58006a5800aa5800fa58018a5801fa58029a5c038a58003a68006a6800aa6800fa68018a6801fa68029a6c038a6,
 0x8003a88006a8800aa8800fa88018a8801fa88029a8c038a88003ae8006ae800aae800fae8018ae801fae8029aec038ae,
 0x8002af8009af8017afc028af8002b48009b48017b4c028b48002b68009b68017b6c028b68002b78009b78017b7c028b7,
 0x8003af8006af800aaf800faf8018af801faf8029afc038af8003b48006b4800ab4800fb48018b4801fb48029b4c038b4,
 0x8003b68006b6800ab6800fb68018b6801fb68029b6c038b68003b78006b7800ab7800fb78018b7801fb78029b7c038b7,
 0xc000bcc000bfc000c5c000e7c000ef00b00000b20000b30000b70000b80000ba0000bb0000c00000c70000d00000df00,
 0x8001bcc016bc8001bfc016bf8001c5c016c58001e7c016e78001efc016efc00009c0008ec00090c00091c00094c0009f,
 0x8002bc8009bc8017bcc028bc8002bf8009bf8017bfc028bf8002c58009c58017c5c028c58002e78009e78017e7c028e7,
 0x8003bc8006bc800abc800fbc8018bc801fbc8029bcc038bc8003bf8006bf800abf800fbf8018bf801fbf8029bfc038bf,
 0x8003c58006c5800ac5800fc58018c5801fc58029c5c038c58003e78006e7800ae7800fe78018e7801fe78029e7c038e7,
 0x8002ef8009ef8017efc028ef800109c0160980018ec0168e800190c01690800191c01691800194c0169480019fc0169f,
 0x8003ef8006ef800aef800fef8018ef801fef8029efc038ef800209800909801709c0280980028e80098e80178ec0288e,
 0x800309800609800a09800f09801809801f09802909c0380980038e80068e800a8e800f8e80188e801f8e80298ec0388e,
 0x800290800990801790c02890800291800991801791c02891800294800994801794c0289480029f80099f80179fc0289f,
 0x800390800690800a90800f90801890801f90802990c03890800391800691800a91800f91801891801f91802991c03891,
 0x800394800694800a94800f94801894801f94802994c0389480039f80069f800a9f800f9f80189f801f9f80299fc0389f,
 0xc000abc000cec000d7c000e1c000ecc000ed00bc0000bd0000c10000c40000c80000cb0000d10000d80000e00000ee00,
 0x8001abc016ab8001cec016ce8001d7c016d78001e1c016e18001ecc016ec8001edc016edc000c7c000cfc000eac000eb,
 0x8002ab8009ab8017abc028ab8002ce8009ce8017cec028ce8002d78009d78017d7c028d78002e18009e18017e1c028e1,
 0x8003ab8006ab800aab800fab8018ab801fab8029abc038ab8003ce8006ce800ace800fce8018ce801fce8029cec038ce,
 0x8003d78006d7800ad7800fd78018d7801fd78029d7c038d78003e18006e1800ae1800fe18018e1801fe18029e1c038e1,
 0x8002ec8009ec8017ecc028ec8002ed8009ed8017edc028ed8001c7c016c78001cfc016cf8001eac016ea8001ebc016eb,
 0x8003ec8006ec800aec800fec8018ec801fec8029ecc038ec8003ed8006ed800aed800fed8018ed801fed8029edc038ed,
 0x8002c78009c78017c7c028c78002cf8009cf8017cfc028cf8002ea8009ea8017eac028ea8002eb8009eb8017ebc028eb,
 0x8003c78006c7800ac7800fc78018c7801fc78029c7c038c78003cf8006cf800acf800fcf8018cf801fcf8029cfc038cf,
 0x8003ea8006ea800aea800fea8018ea801fea8029eac038ea8003eb8006eb800aeb800feb8018eb801feb8029ebc038eb,
 0x00c20000c30000c50000c60000c90000ca0000cc0000cd0000d20000d50000d90000dc0000e10000e70000ef0000f600,
 0xc000c0c000c1c000c8c000c9c000cac000cdc000d2c000d5c000dac000dbc000eec000f0c000f2c000f3c000ff00ce00,
 0x8001c0c016c08001c1c016c18001c8c016c88001c9c016c98001cac016ca8001cdc016cd8001d2c016d28001d5c016d5,
 0x8002c08009c08017c0c028c08002c18009c18017c1c028c18002c88009c88017c8c028c88002c98009c98017c9c028c9,
 0x8003c08006c0800ac0800fc08018c0801fc08029c0c038c08003c18006c1800ac1800fc18018c1801fc18029c1c038c1,
 0x8003c88006c8800ac8800fc88018c8801fc88029c8c038c88003c98006c9800ac9800fc98018c9801fc98029c9c038c9,
 0x8002ca8009ca8017cac028ca8002cd8009cd8017cdc028cd8002d28009d28017d2c028d28002d58009d58017d5c028d5,
 0x8003ca8006ca800aca800fca8018ca801fca8029cac038ca8003cd8006cd800acd800fcd8018cd801fcd8029cdc038cd,
 0x8003d28006d2800ad2800fd28018d2801fd28029d2c038d28003d58006d5800ad5800fd58018d5801fd58029d5c038d5,
 0x8001dac016da8001dbc016db8001eec016ee8001f0c016f08001f2c016f28001f3c016f38001ffc016ffc000cbc000cc,
 0x8002da8009da8017dac028da8002db8009db8017dbc028db8002ee8009ee8017eec028ee8002f08009f08017f0c028f0,
 0x8003da8006da800ada800fda8018da801fda8029dac038da8003db8006db800adb800fdb8018db801fdb8029dbc038db,
 0x8003ee8006ee800aee800fee8018ee801fee8029eec038ee8003f08006f0800af0800ff08018f0801ff08029f0c038f0,
 0x8002f28009f28017f2c028f28002f38009f38017f3c028f38002ff8009ff8017ffc028ff8001cbc016cb8001ccc016cc,
 0x8003f28006f2800af2800ff28018f2801ff28029f2c038f28003f38006f3800af3800ff38018f3801ff38029f3c038f3,
 0x8003ff8006ff800aff800fff8018ff801fff8029ffc038ff8002cb8009cb8017cbc028cb8002cc8009cc8017ccc028cc,
 0x8003cb8006cb800acb800fcb8018cb801fcb8029cbc038cb8003cc8006cc800acc800fcc8018cc801fcc8029ccc038cc,
 0x00d30000d40000d60000d70000da0000db0000dd0000de0000e20000e40000e80000eb0000f00000f30000f70000fa00,
 0xc000d3c000d4c000d6c000ddc000dec000dfc000f1c000f4c000f5c000f6c000f7c000f8c000fac000fbc000fcc000fd,
 0x8001d3c016d38001d4c016d48001d6c016d68001ddc016dd8001dec016de8001dfc016df8001f1c016f18001f4c016f4,
 0x8002d38009d38017d3c028d38002d48009d48017d4c028d48002d68009d68017d6c028d68002dd8009dd8017ddc028dd,
 0x8003d38006d3800ad3800fd38018d3801fd38029d3c038d38003d48006d4800ad4800fd48018d4801fd48029d4c038d4,
 0x8003d68006d6800ad6800fd68018d6801fd68029d6c038d68003dd8006dd800add800fdd8018dd801fdd8029ddc038dd,
 0x8002de8009de8017dec028de8002df8009df8017dfc028df8002f18009f18017f1c028f18002f48009f48017f4c028f4,
 0x8003de8006de800ade800fde8018de801fde8029dec038de8003df8006df800adf800fdf8018df801fdf8029dfc038df,
 0x8003f18006f1800af1800ff18018f1801ff18029f1c038f18003f48006f4800af4800ff48018f4801ff48029f4c038f4,
 0x8001f5c016f58001f6c016f68001f7c016f78001f8c016f88001fac016fa8001fbc016fb8001fcc016fc8001fdc016fd,
 0x8002f58009f58017f5c028f58002f68009f68017f6c028f68002f78009f78017f7c028f78002f88009f88017f8c028f8,
 0x8003f58006f5800af5800ff58018f5801ff58029f5c038f58003f68006f6800af6800ff68018f6801ff68029f6c038f6,
 0x8003f78006f7800af7800ff78018f7801ff78029f7c038f78003f88006f8800af8800ff88018f8801ff88029f8c038f8,
 0x8002fa8009fa8017fac028fa8002fb8009fb8017fbc028fb8002fc8009fc8017fcc028fc8002fd8009fd8017fdc028fd,
 0x8003fa8006fa800afa800ffa8018fa801ffa8029fac038fa8003fb8006fb800afb800ffb8018fb801ffb8029fbc038fb,
 0x8003fc8006fc800afc800ffc8018fc801ffc8029fcc038fc8003fd8006fd800afd800ffd8018fd801ffd8029fdc038fd,
 0xc000fe00e30000e50000e60000e90000ea0000ec0000ed0000f10000f20000f40000f50000f80000f90000fb0000fc00,
 0x8001fec016fec00002c00003c00004c00005c00006c00007c00008c0000bc0000cc0000ec0000fc00010c00011c00012,
 0x8002fe8009fe8017fec028fe800102c01602800103c01603800104c01604800105c01605800106c01606800107c01607,
 0x8003fe8006fe800afe800ffe8018fe801ffe8029fec038fe800202800902801702c02802800203800903801703c02803,
 0x800302800602800a02800f02801802801f02802902c03802800303800603800a03800f03801803801f03802903c03803,
 0x800204800904801704c02804800205800905801705c02805800206800906801706c02806800207800907801707c02807,
 0x800304800604800a04800f04801804801f04802904c03804800305800605800a05800f05801805801f05802905c03805,
 0x800306800606800a06800f06801806801f06802906c03806800307800607800a07800f07801807801f07802907c03807,
 0x800108c0160880010bc0160b80010cc0160c80010ec0160e80010fc0160f800110c01610800111c01611800112c01612,
 0x800208800908801708c0280880020b80090b80170bc0280b80020c80090c80170cc0280c80020e80090e80170ec0280e,
 0x800308800608800a08800f08801808801f08802908c0380880030b80060b800a0b800f0b80180b801f0b80290bc0380b,
 0x80030c80060c800a0c800f0c80180c801f0c80290cc0380c80030e80060e800a0e800f0e80180e801f0e80290ec0380e,
 0x80020f80090f80170fc0280f800210800910801710c02810800211800911801711c02811800212800912801712c02812,
 0x80030f80060f800a0f800f0f80180f801f0f80290fc0380f800310800610800a10800f10801810801f10802910c03810,
 0x800311800611800a11800f11801811801f11802911c03811800312800612800a12800f12801812801f12802912c03812,
 0xc00013c00014c00015c00017c00018c00019c0001ac0001bc0001cc0001dc0001ec0001fc0007fc000dcc000f900fd00,
 0x800113c01613800114c01614800115c01615800117c01617800118c01618800119c0161980011ac0161a80011bc0161b,
 0x800213800913801713c02813800214800914801714c02814800215800915801715c02815800217800917801717c02817,
 0x800313800613800a13800f13801813801f13802913c03813800314800614800a14800f14801814801f14802914c03814,
 0x800315800615800a15800f15801815801f15802915c03815800317800617800a17800f17801817801f17802917c03817,
 0x800218800918801718c02818800219800919801719c0281980021a80091a80171ac0281a80021b80091b80171bc0281b,
 0x800318800618800a18800f18801818801f18802918c03818800319800619800a19800f19801819801f19802919c03819,
 0x80031a80061a800a1a800f1a80181a801f1a80291ac0381a80031b80061b800a1b800f1b80181b801f1b80291bc0381b,
 0x80011cc0161c80011dc0161d80011ec0161e80011fc0161f80017fc0167f8001dcc016dc8001f9c016f900fe0000ff00,
 0x80021c80091c80171cc0281c80021d80091d80171dc0281d80021e80091e80171ec0281e80021f80091f80171fc0281f,
 0x80031c80061c800a1c800f1c80181c801f1c80291cc0381c80031d80061d800a1d800f1d80181d801f1d80291dc0381d,
 0x80031e80061e800a1e800f1e80181e801f1e80291ec0381e80031f80061f800a1f800f1f80181f801f1f80291fc0381f,
 0x80027f80097f80177fc0287f8002dc8009dc8017dcc028dc8002f98009f98017f9c028f9c0000ac0000dc00016010000,
 0x80037f80067f800a7f800f7f80187f801f7f80297fc0387f8003dc8006dc800adc800fdc8018dc801fdc8029dcc038dc,
 0x8003f98006f9800af9800ff98018f9801ff98029f9c038f980010ac0160a80010dc0160d800116c01616010000010000,
 0x80020a80090a80170ac0280a80020d80090d80170dc0280d800216800916801716c02816010000010000010000010000,
 0x80030a80060a800a0a800f0a80180a801f0a80290ac0380a80030d80060d800a0d800f0d80180d801f0d80290dc0380d,
 0x800316800616800a16800f16801816801f16802916c03816010000010000010000010000010000010000010000010000,
 0x010000010000010000010000010000010000010000010000010000010000010000010000010000010000010000010000]

/-- `huff_decode_table[state][nibble]`. -/
def huffDecodeTable (state nibble : ℕ) : Http2HuffDecode :=
  let entry := huffDecodeRows.getD state 0 >>> (24 * (15 - nibble)) % 2 ^ 24
  { fstate := entry / 2 ^ 8, sym := entry.toUInt8 }

/-- The automaton does not leave the table. -/
theorem huffDecodeTable_closed : ∀ state < 257, ∀ nibble < 16,
    (huffDecodeTable state nibble).fstate % 2 ^ 9 < huffDecodeRows.length := by
  decide +kernel

end LibHttp2.Hpack
