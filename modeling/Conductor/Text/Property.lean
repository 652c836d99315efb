/-!
# Character classes

Ranges of code points for the classes that the language's words, numerals and
blanks are made of: letters, decimal digits, other digits, other numerics,
blanks, upper and lower case letters, and the code points that have no printed
form of their own. The tables are those of the character standard, version 14;
nothing here depends on a locale.
-/

set_option autoImplicit false

namespace Conductor.Text

private def letterRangesA : List (Nat × Nat) := [
  (0x41,0x5A), (0x61,0x7A), (0xAA,0xAA), (0xB5,0xB5), (0xBA,0xBA), (0xC0,0xD6), (0xD8,0xF6),
  (0xF8,0x2C1), (0x2C6,0x2D1), (0x2E0,0x2E4), (0x2EC,0x2EC), (0x2EE,0x2EE), (0x370,0x374),
  (0x376,0x377), (0x37A,0x37D), (0x37F,0x37F), (0x386,0x386), (0x388,0x38A), (0x38C,0x38C),
  (0x38E,0x3A1), (0x3A3,0x3F5), (0x3F7,0x481), (0x48A,0x52F), (0x531,0x556), (0x559,0x559),
  (0x560,0x588), (0x5D0,0x5EA), (0x5EF,0x5F2), (0x620,0x64A), (0x66E,0x66F), (0x671,0x6D3),
  (0x6D5,0x6D5), (0x6E5,0x6E6), (0x6EE,0x6EF), (0x6FA,0x6FC), (0x6FF,0x6FF), (0x710,0x710),
  (0x712,0x72F), (0x74D,0x7A5), (0x7B1,0x7B1), (0x7CA,0x7EA), (0x7F4,0x7F5), (0x7FA,0x7FA),
  (0x800,0x815), (0x81A,0x81A), (0x824,0x824), (0x828,0x828), (0x840,0x858), (0x860,0x86A),
  (0x870,0x887), (0x889,0x88E), (0x8A0,0x8C9), (0x904,0x939), (0x93D,0x93D), (0x950,0x950),
  (0x958,0x961), (0x971,0x980), (0x985,0x98C), (0x98F,0x990), (0x993,0x9A8), (0x9AA,0x9B0),
  (0x9B2,0x9B2), (0x9B6,0x9B9), (0x9BD,0x9BD), (0x9CE,0x9CE), (0x9DC,0x9DD), (0x9DF,0x9E1),
  (0x9F0,0x9F1), (0x9FC,0x9FC), (0xA05,0xA0A), (0xA0F,0xA10), (0xA13,0xA28), (0xA2A,0xA30),
  (0xA32,0xA33), (0xA35,0xA36), (0xA38,0xA39), (0xA59,0xA5C), (0xA5E,0xA5E), (0xA72,0xA74),
  (0xA85,0xA8D), (0xA8F,0xA91), (0xA93,0xAA8), (0xAAA,0xAB0), (0xAB2,0xAB3), (0xAB5,0xAB9),
  (0xABD,0xABD), (0xAD0,0xAD0), (0xAE0,0xAE1), (0xAF9,0xAF9), (0xB05,0xB0C), (0xB0F,0xB10),
  (0xB13,0xB28), (0xB2A,0xB30), (0xB32,0xB33), (0xB35,0xB39), (0xB3D,0xB3D), (0xB5C,0xB5D),
  (0xB5F,0xB61), (0xB71,0xB71), (0xB83,0xB83), (0xB85,0xB8A), (0xB8E,0xB90), (0xB92,0xB95),
  (0xB99,0xB9A), (0xB9C,0xB9C), (0xB9E,0xB9F), (0xBA3,0xBA4), (0xBA8,0xBAA), (0xBAE,0xBB9),
  (0xBD0,0xBD0), (0xC05,0xC0C), (0xC0E,0xC10), (0xC12,0xC28), (0xC2A,0xC39), (0xC3D,0xC3D),
  (0xC58,0xC5A), (0xC5D,0xC5D), (0xC60,0xC61), (0xC80,0xC80), (0xC85,0xC8C), (0xC8E,0xC90),
  (0xC92,0xCA8), (0xCAA,0xCB3), (0xCB5,0xCB9), (0xCBD,0xCBD), (0xCDD,0xCDE), (0xCE0,0xCE1),
  (0xCF1,0xCF2), (0xD04,0xD0C), (0xD0E,0xD10), (0xD12,0xD3A), (0xD3D,0xD3D), (0xD4E,0xD4E),
  (0xD54,0xD56), (0xD5F,0xD61), (0xD7A,0xD7F), (0xD85,0xD96), (0xD9A,0xDB1), (0xDB3,0xDBB),
  (0xDBD,0xDBD), (0xDC0,0xDC6), (0xE01,0xE30), (0xE32,0xE33), (0xE40,0xE46), (0xE81,0xE82),
  (0xE84,0xE84), (0xE86,0xE8A), (0xE8C,0xEA3), (0xEA5,0xEA5), (0xEA7,0xEB0), (0xEB2,0xEB3),
  (0xEBD,0xEBD), (0xEC0,0xEC4), (0xEC6,0xEC6), (0xEDC,0xEDF), (0xF00,0xF00), (0xF40,0xF47),
  (0xF49,0xF6C), (0xF88,0xF8C), (0x1000,0x102A)]

private def letterRangesB : List (Nat × Nat) := [
  (0x103F,0x103F), (0x1050,0x1055), (0x105A,0x105D), (0x1061,0x1061), (0x1065,0x1066),
  (0x106E,0x1070), (0x1075,0x1081), (0x108E,0x108E), (0x10A0,0x10C5), (0x10C7,0x10C7),
  (0x10CD,0x10CD), (0x10D0,0x10FA), (0x10FC,0x1248), (0x124A,0x124D), (0x1250,0x1256),
  (0x1258,0x1258), (0x125A,0x125D), (0x1260,0x1288), (0x128A,0x128D), (0x1290,0x12B0),
  (0x12B2,0x12B5), (0x12B8,0x12BE), (0x12C0,0x12C0), (0x12C2,0x12C5), (0x12C8,0x12D6),
  (0x12D8,0x1310), (0x1312,0x1315), (0x1318,0x135A), (0x1380,0x138F), (0x13A0,0x13F5),
  (0x13F8,0x13FD), (0x1401,0x166C), (0x166F,0x167F), (0x1681,0x169A), (0x16A0,0x16EA),
  (0x16F1,0x16F8), (0x1700,0x1711), (0x171F,0x1731), (0x1740,0x1751), (0x1760,0x176C),
  (0x176E,0x1770), (0x1780,0x17B3), (0x17D7,0x17D7), (0x17DC,0x17DC), (0x1820,0x1878),
  (0x1880,0x1884), (0x1887,0x18A8), (0x18AA,0x18AA), (0x18B0,0x18F5), (0x1900,0x191E),
  (0x1950,0x196D), (0x1970,0x1974), (0x1980,0x19AB), (0x19B0,0x19C9), (0x1A00,0x1A16),
  (0x1A20,0x1A54), (0x1AA7,0x1AA7), (0x1B05,0x1B33), (0x1B45,0x1B4C), (0x1B83,0x1BA0),
  (0x1BAE,0x1BAF), (0x1BBA,0x1BE5), (0x1C00,0x1C23), (0x1C4D,0x1C4F), (0x1C5A,0x1C7D),
  (0x1C80,0x1C88), (0x1C90,0x1CBA), (0x1CBD,0x1CBF), (0x1CE9,0x1CEC), (0x1CEE,0x1CF3),
  (0x1CF5,0x1CF6), (0x1CFA,0x1CFA), (0x1D00,0x1DBF), (0x1E00,0x1F15), (0x1F18,0x1F1D),
  (0x1F20,0x1F45), (0x1F48,0x1F4D), (0x1F50,0x1F57), (0x1F59,0x1F59), (0x1F5B,0x1F5B),
  (0x1F5D,0x1F5D), (0x1F5F,0x1F7D), (0x1F80,0x1FB4), (0x1FB6,0x1FBC), (0x1FBE,0x1FBE),
  (0x1FC2,0x1FC4), (0x1FC6,0x1FCC), (0x1FD0,0x1FD3), (0x1FD6,0x1FDB), (0x1FE0,0x1FEC),
  (0x1FF2,0x1FF4), (0x1FF6,0x1FFC), (0x2071,0x2071), (0x207F,0x207F), (0x2090,0x209C),
  (0x2102,0x2102), (0x2107,0x2107), (0x210A,0x2113), (0x2115,0x2115), (0x2119,0x211D),
  (0x2124,0x2124), (0x2126,0x2126), (0x2128,0x2128), (0x212A,0x212D), (0x212F,0x2139),
  (0x213C,0x213F), (0x2145,0x2149), (0x214E,0x214E), (0x2183,0x2184), (0x2C00,0x2CE4),
  (0x2CEB,0x2CEE), (0x2CF2,0x2CF3), (0x2D00,0x2D25), (0x2D27,0x2D27), (0x2D2D,0x2D2D),
  (0x2D30,0x2D67), (0x2D6F,0x2D6F), (0x2D80,0x2D96), (0x2DA0,0x2DA6), (0x2DA8,0x2DAE),
  (0x2DB0,0x2DB6), (0x2DB8,0x2DBE), (0x2DC0,0x2DC6), (0x2DC8,0x2DCE), (0x2DD0,0x2DD6),
  (0x2DD8,0x2DDE), (0x2E2F,0x2E2F), (0x3005,0x3006), (0x3031,0x3035), (0x303B,0x303C),
  (0x3041,0x3096), (0x309D,0x309F), (0x30A1,0x30FA), (0x30FC,0x30FF), (0x3105,0x312F),
  (0x3131,0x318E), (0x31A0,0x31BF), (0x31F0,0x31FF), (0x3400,0x4DBF), (0x4E00,0xA48C),
  (0xA4D0,0xA4FD), (0xA500,0xA60C), (0xA610,0xA61F), (0xA62A,0xA62B), (0xA640,0xA66E),
  (0xA67F,0xA69D), (0xA6A0,0xA6E5), (0xA717,0xA71F), (0xA722,0xA788), (0xA78B,0xA7CA),
  (0xA7D0,0xA7D1), (0xA7D3,0xA7D3), (0xA7D5,0xA7D9), (0xA7F2,0xA801), (0xA803,0xA805),
  (0xA807,0xA80A), (0xA80C,0xA822), (0xA840,0xA873), (0xA882,0xA8B3), (0xA8F2,0xA8F7)]

private def letterRangesC : List (Nat × Nat) := [
  (0xA8FB,0xA8FB), (0xA8FD,0xA8FE), (0xA90A,0xA925), (0xA930,0xA946), (0xA960,0xA97C),
  (0xA984,0xA9B2), (0xA9CF,0xA9CF), (0xA9E0,0xA9E4), (0xA9E6,0xA9EF), (0xA9FA,0xA9FE),
  (0xAA00,0xAA28), (0xAA40,0xAA42), (0xAA44,0xAA4B), (0xAA60,0xAA76), (0xAA7A,0xAA7A),
  (0xAA7E,0xAAAF), (0xAAB1,0xAAB1), (0xAAB5,0xAAB6), (0xAAB9,0xAABD), (0xAAC0,0xAAC0),
  (0xAAC2,0xAAC2), (0xAADB,0xAADD), (0xAAE0,0xAAEA), (0xAAF2,0xAAF4), (0xAB01,0xAB06),
  (0xAB09,0xAB0E), (0xAB11,0xAB16), (0xAB20,0xAB26), (0xAB28,0xAB2E), (0xAB30,0xAB5A),
  (0xAB5C,0xAB69), (0xAB70,0xABE2), (0xAC00,0xD7A3), (0xD7B0,0xD7C6), (0xD7CB,0xD7FB),
  (0xF900,0xFA6D), (0xFA70,0xFAD9), (0xFB00,0xFB06), (0xFB13,0xFB17), (0xFB1D,0xFB1D),
  (0xFB1F,0xFB28), (0xFB2A,0xFB36), (0xFB38,0xFB3C), (0xFB3E,0xFB3E), (0xFB40,0xFB41),
  (0xFB43,0xFB44), (0xFB46,0xFBB1), (0xFBD3,0xFD3D), (0xFD50,0xFD8F), (0xFD92,0xFDC7),
  (0xFDF0,0xFDFB), (0xFE70,0xFE74), (0xFE76,0xFEFC), (0xFF21,0xFF3A), (0xFF41,0xFF5A),
  (0xFF66,0xFFBE), (0xFFC2,0xFFC7), (0xFFCA,0xFFCF), (0xFFD2,0xFFD7), (0xFFDA,0xFFDC),
  (0x10000,0x1000B), (0x1000D,0x10026), (0x10028,0x1003A), (0x1003C,0x1003D), (0x1003F,0x1004D),
  (0x10050,0x1005D), (0x10080,0x100FA), (0x10280,0x1029C), (0x102A0,0x102D0), (0x10300,0x1031F),
  (0x1032D,0x10340), (0x10342,0x10349), (0x10350,0x10375), (0x10380,0x1039D), (0x103A0,0x103C3),
  (0x103C8,0x103CF), (0x10400,0x1049D), (0x104B0,0x104D3), (0x104D8,0x104FB), (0x10500,0x10527),
  (0x10530,0x10563), (0x10570,0x1057A), (0x1057C,0x1058A), (0x1058C,0x10592), (0x10594,0x10595),
  (0x10597,0x105A1), (0x105A3,0x105B1), (0x105B3,0x105B9), (0x105BB,0x105BC), (0x10600,0x10736),
  (0x10740,0x10755), (0x10760,0x10767), (0x10780,0x10785), (0x10787,0x107B0), (0x107B2,0x107BA),
  (0x10800,0x10805), (0x10808,0x10808), (0x1080A,0x10835), (0x10837,0x10838), (0x1083C,0x1083C),
  (0x1083F,0x10855), (0x10860,0x10876), (0x10880,0x1089E), (0x108E0,0x108F2), (0x108F4,0x108F5),
  (0x10900,0x10915), (0x10920,0x10939), (0x10980,0x109B7), (0x109BE,0x109BF), (0x10A00,0x10A00),
  (0x10A10,0x10A13), (0x10A15,0x10A17), (0x10A19,0x10A35), (0x10A60,0x10A7C), (0x10A80,0x10A9C),
  (0x10AC0,0x10AC7), (0x10AC9,0x10AE4), (0x10B00,0x10B35), (0x10B40,0x10B55), (0x10B60,0x10B72),
  (0x10B80,0x10B91), (0x10C00,0x10C48), (0x10C80,0x10CB2), (0x10CC0,0x10CF2), (0x10D00,0x10D23),
  (0x10E80,0x10EA9), (0x10EB0,0x10EB1), (0x10F00,0x10F1C), (0x10F27,0x10F27), (0x10F30,0x10F45),
  (0x10F70,0x10F81), (0x10FB0,0x10FC4), (0x10FE0,0x10FF6), (0x11003,0x11037), (0x11071,0x11072),
  (0x11075,0x11075), (0x11083,0x110AF), (0x110D0,0x110E8), (0x11103,0x11126), (0x11144,0x11144),
  (0x11147,0x11147), (0x11150,0x11172), (0x11176,0x11176), (0x11183,0x111B2), (0x111C1,0x111C4),
  (0x111DA,0x111DA), (0x111DC,0x111DC), (0x11200,0x11211), (0x11213,0x1122B), (0x11280,0x11286),
  (0x11288,0x11288), (0x1128A,0x1128D), (0x1128F,0x1129D), (0x1129F,0x112A8), (0x112B0,0x112DE),
  (0x11305,0x1130C), (0x1130F,0x11310), (0x11313,0x11328), (0x1132A,0x11330), (0x11332,0x11333)]

private def letterRangesD : List (Nat × Nat) := [
  (0x11335,0x11339), (0x1133D,0x1133D), (0x11350,0x11350), (0x1135D,0x11361), (0x11400,0x11434),
  (0x11447,0x1144A), (0x1145F,0x11461), (0x11480,0x114AF), (0x114C4,0x114C5), (0x114C7,0x114C7),
  (0x11580,0x115AE), (0x115D8,0x115DB), (0x11600,0x1162F), (0x11644,0x11644), (0x11680,0x116AA),
  (0x116B8,0x116B8), (0x11700,0x1171A), (0x11740,0x11746), (0x11800,0x1182B), (0x118A0,0x118DF),
  (0x118FF,0x11906), (0x11909,0x11909), (0x1190C,0x11913), (0x11915,0x11916), (0x11918,0x1192F),
  (0x1193F,0x1193F), (0x11941,0x11941), (0x119A0,0x119A7), (0x119AA,0x119D0), (0x119E1,0x119E1),
  (0x119E3,0x119E3), (0x11A00,0x11A00), (0x11A0B,0x11A32), (0x11A3A,0x11A3A), (0x11A50,0x11A50),
  (0x11A5C,0x11A89), (0x11A9D,0x11A9D), (0x11AB0,0x11AF8), (0x11C00,0x11C08), (0x11C0A,0x11C2E),
  (0x11C40,0x11C40), (0x11C72,0x11C8F), (0x11D00,0x11D06), (0x11D08,0x11D09), (0x11D0B,0x11D30),
  (0x11D46,0x11D46), (0x11D60,0x11D65), (0x11D67,0x11D68), (0x11D6A,0x11D89), (0x11D98,0x11D98),
  (0x11EE0,0x11EF2), (0x11FB0,0x11FB0), (0x12000,0x12399), (0x12480,0x12543), (0x12F90,0x12FF0),
  (0x13000,0x1342E), (0x14400,0x14646), (0x16800,0x16A38), (0x16A40,0x16A5E), (0x16A70,0x16ABE),
  (0x16AD0,0x16AED), (0x16B00,0x16B2F), (0x16B40,0x16B43), (0x16B63,0x16B77), (0x16B7D,0x16B8F),
  (0x16E40,0x16E7F), (0x16F00,0x16F4A), (0x16F50,0x16F50), (0x16F93,0x16F9F), (0x16FE0,0x16FE1),
  (0x16FE3,0x16FE3), (0x17000,0x187F7), (0x18800,0x18CD5), (0x18D00,0x18D08), (0x1AFF0,0x1AFF3),
  (0x1AFF5,0x1AFFB), (0x1AFFD,0x1AFFE), (0x1B000,0x1B122), (0x1B150,0x1B152), (0x1B164,0x1B167),
  (0x1B170,0x1B2FB), (0x1BC00,0x1BC6A), (0x1BC70,0x1BC7C), (0x1BC80,0x1BC88), (0x1BC90,0x1BC99),
  (0x1D400,0x1D454), (0x1D456,0x1D49C), (0x1D49E,0x1D49F), (0x1D4A2,0x1D4A2), (0x1D4A5,0x1D4A6),
  (0x1D4A9,0x1D4AC), (0x1D4AE,0x1D4B9), (0x1D4BB,0x1D4BB), (0x1D4BD,0x1D4C3), (0x1D4C5,0x1D505),
  (0x1D507,0x1D50A), (0x1D50D,0x1D514), (0x1D516,0x1D51C), (0x1D51E,0x1D539), (0x1D53B,0x1D53E),
  (0x1D540,0x1D544), (0x1D546,0x1D546), (0x1D54A,0x1D550), (0x1D552,0x1D6A5), (0x1D6A8,0x1D6C0),
  (0x1D6C2,0x1D6DA), (0x1D6DC,0x1D6FA), (0x1D6FC,0x1D714), (0x1D716,0x1D734), (0x1D736,0x1D74E),
  (0x1D750,0x1D76E), (0x1D770,0x1D788), (0x1D78A,0x1D7A8), (0x1D7AA,0x1D7C2), (0x1D7C4,0x1D7CB),
  (0x1DF00,0x1DF1E), (0x1E100,0x1E12C), (0x1E137,0x1E13D), (0x1E14E,0x1E14E), (0x1E290,0x1E2AD),
  (0x1E2C0,0x1E2EB), (0x1E7E0,0x1E7E6), (0x1E7E8,0x1E7EB), (0x1E7ED,0x1E7EE), (0x1E7F0,0x1E7FE),
  (0x1E800,0x1E8C4), (0x1E900,0x1E943), (0x1E94B,0x1E94B), (0x1EE00,0x1EE03), (0x1EE05,0x1EE1F),
  (0x1EE21,0x1EE22), (0x1EE24,0x1EE24), (0x1EE27,0x1EE27), (0x1EE29,0x1EE32), (0x1EE34,0x1EE37),
  (0x1EE39,0x1EE39), (0x1EE3B,0x1EE3B), (0x1EE42,0x1EE42), (0x1EE47,0x1EE47), (0x1EE49,0x1EE49),
  (0x1EE4B,0x1EE4B), (0x1EE4D,0x1EE4F), (0x1EE51,0x1EE52), (0x1EE54,0x1EE54), (0x1EE57,0x1EE57),
  (0x1EE59,0x1EE59), (0x1EE5B,0x1EE5B), (0x1EE5D,0x1EE5D), (0x1EE5F,0x1EE5F), (0x1EE61,0x1EE62),
  (0x1EE64,0x1EE64), (0x1EE67,0x1EE6A), (0x1EE6C,0x1EE72), (0x1EE74,0x1EE77), (0x1EE79,0x1EE7C),
  (0x1EE7E,0x1EE7E), (0x1EE80,0x1EE89), (0x1EE8B,0x1EE9B), (0x1EEA1,0x1EEA3), (0x1EEA5,0x1EEA9)]

private def letterRangesE : List (Nat × Nat) := [
  (0x1EEAB,0x1EEBB), (0x20000,0x2A6DF), (0x2A700,0x2B738), (0x2B740,0x2B81D), (0x2B820,0x2CEA1),
  (0x2CEB0,0x2EBE0), (0x2F800,0x2FA1D), (0x30000,0x3134A)]

def letterRanges : List (Nat × Nat) :=
  letterRangesA ++ letterRangesB ++ letterRangesC ++ letterRangesD ++ letterRangesE

def decimalRanges : List (Nat × Nat) := [
  (0x30,0x39), (0x660,0x669), (0x6F0,0x6F9), (0x7C0,0x7C9), (0x966,0x96F), (0x9E6,0x9EF),
  (0xA66,0xA6F), (0xAE6,0xAEF), (0xB66,0xB6F), (0xBE6,0xBEF), (0xC66,0xC6F), (0xCE6,0xCEF),
  (0xD66,0xD6F), (0xDE6,0xDEF), (0xE50,0xE59), (0xED0,0xED9), (0xF20,0xF29), (0x1040,0x1049),
  (0x1090,0x1099), (0x17E0,0x17E9), (0x1810,0x1819), (0x1946,0x194F), (0x19D0,0x19D9),
  (0x1A80,0x1A89), (0x1A90,0x1A99), (0x1B50,0x1B59), (0x1BB0,0x1BB9), (0x1C40,0x1C49),
  (0x1C50,0x1C59), (0xA620,0xA629), (0xA8D0,0xA8D9), (0xA900,0xA909), (0xA9D0,0xA9D9),
  (0xA9F0,0xA9F9), (0xAA50,0xAA59), (0xABF0,0xABF9), (0xFF10,0xFF19), (0x104A0,0x104A9),
  (0x10D30,0x10D39), (0x11066,0x1106F), (0x110F0,0x110F9), (0x11136,0x1113F), (0x111D0,0x111D9),
  (0x112F0,0x112F9), (0x11450,0x11459), (0x114D0,0x114D9), (0x11650,0x11659), (0x116C0,0x116C9),
  (0x11730,0x11739), (0x118E0,0x118E9), (0x11950,0x11959), (0x11C50,0x11C59), (0x11D50,0x11D59),
  (0x11DA0,0x11DA9), (0x16A60,0x16A69), (0x16AC0,0x16AC9), (0x16B50,0x16B59), (0x1D7CE,0x1D7FF),
  (0x1E140,0x1E149), (0x1E2F0,0x1E2F9), (0x1E950,0x1E959), (0x1FBF0,0x1FBF9)]

/-- Digits that are not decimal digits, such as superscripts and circled digits. -/
def digitRanges : List (Nat × Nat) := [
  (0xB2,0xB3), (0xB9,0xB9), (0x1369,0x1371), (0x19DA,0x19DA), (0x2070,0x2070), (0x2074,0x2079),
  (0x2080,0x2089), (0x2460,0x2468), (0x2474,0x247C), (0x2488,0x2490), (0x24EA,0x24EA),
  (0x24F5,0x24FD), (0x24FF,0x24FF), (0x2776,0x277E), (0x2780,0x2788), (0x278A,0x2792),
  (0x10A40,0x10A43), (0x10E60,0x10E68), (0x11052,0x1105A), (0x1F100,0x1F10A)]

def numericRanges : List (Nat × Nat) := [
  (0xBC,0xBE), (0x9F4,0x9F9), (0xB72,0xB77), (0xBF0,0xBF2), (0xC78,0xC7E), (0xD58,0xD5E),
  (0xD70,0xD78), (0xF2A,0xF33), (0x1372,0x137C), (0x16EE,0x16F0), (0x17F0,0x17F9),
  (0x2150,0x2182), (0x2185,0x2189), (0x2469,0x2473), (0x247D,0x2487), (0x2491,0x249B),
  (0x24EB,0x24F4), (0x24FE,0x24FE), (0x277F,0x277F), (0x2789,0x2789), (0x2793,0x2793),
  (0x2CFD,0x2CFD), (0x3007,0x3007), (0x3021,0x3029), (0x3038,0x303A), (0x3192,0x3195),
  (0x3220,0x3229), (0x3248,0x324F), (0x3251,0x325F), (0x3280,0x3289), (0x32B1,0x32BF),
  (0xA6E6,0xA6EF), (0xA830,0xA835), (0x10107,0x10133), (0x10140,0x10178), (0x1018A,0x1018B),
  (0x102E1,0x102FB), (0x10320,0x10323), (0x10341,0x10341), (0x1034A,0x1034A), (0x103D1,0x103D5),
  (0x10858,0x1085F), (0x10879,0x1087F), (0x108A7,0x108AF), (0x108FB,0x108FF), (0x10916,0x1091B),
  (0x109BC,0x109BD), (0x109C0,0x109CF), (0x109D2,0x109FF), (0x10A44,0x10A48), (0x10A7D,0x10A7E),
  (0x10A9D,0x10A9F), (0x10AEB,0x10AEF), (0x10B58,0x10B5F), (0x10B78,0x10B7F), (0x10BA9,0x10BAF),
  (0x10CFA,0x10CFF), (0x10E69,0x10E7E), (0x10F1D,0x10F26), (0x10F51,0x10F54), (0x10FC5,0x10FCB),
  (0x1105B,0x11065), (0x111E1,0x111F4), (0x1173A,0x1173B), (0x118EA,0x118F2), (0x11C5A,0x11C6C),
  (0x11FC0,0x11FD4), (0x12400,0x1246E), (0x16B5B,0x16B61), (0x16E80,0x16E96), (0x1D2E0,0x1D2F3),
  (0x1D360,0x1D378), (0x1E8C7,0x1E8CF), (0x1EC71,0x1ECAB), (0x1ECAD,0x1ECAF), (0x1ECB1,0x1ECB4),
  (0x1ED01,0x1ED2D), (0x1ED2F,0x1ED3D), (0x1F10B,0x1F10C)]

def blankRanges : List (Nat × Nat) := [
  (0x9,0xD), (0x1C,0x20), (0x85,0x85), (0xA0,0xA0), (0x1680,0x1680), (0x2000,0x200A),
  (0x2028,0x2029), (0x202F,0x202F), (0x205F,0x205F), (0x3000,0x3000)]

private def unprintedRangesA : List (Nat × Nat) := [
  (0x0,0x1F), (0x7F,0xA0), (0xAD,0xAD), (0x378,0x379), (0x380,0x383), (0x38B,0x38B),
  (0x38D,0x38D), (0x3A2,0x3A2), (0x530,0x530), (0x557,0x558), (0x58B,0x58C), (0x590,0x590),
  (0x5C8,0x5CF), (0x5EB,0x5EE), (0x5F5,0x605), (0x61C,0x61C), (0x6DD,0x6DD), (0x70E,0x70F),
  (0x74B,0x74C), (0x7B2,0x7BF), (0x7FB,0x7FC), (0x82E,0x82F), (0x83F,0x83F), (0x85C,0x85D),
  (0x85F,0x85F), (0x86B,0x86F), (0x88F,0x897), (0x8E2,0x8E2), (0x984,0x984), (0x98D,0x98E),
  (0x991,0x992), (0x9A9,0x9A9), (0x9B1,0x9B1), (0x9B3,0x9B5), (0x9BA,0x9BB), (0x9C5,0x9C6),
  (0x9C9,0x9CA), (0x9CF,0x9D6), (0x9D8,0x9DB), (0x9DE,0x9DE), (0x9E4,0x9E5), (0x9FF,0xA00),
  (0xA04,0xA04), (0xA0B,0xA0E), (0xA11,0xA12), (0xA29,0xA29), (0xA31,0xA31), (0xA34,0xA34),
  (0xA37,0xA37), (0xA3A,0xA3B), (0xA3D,0xA3D), (0xA43,0xA46), (0xA49,0xA4A), (0xA4E,0xA50),
  (0xA52,0xA58), (0xA5D,0xA5D), (0xA5F,0xA65), (0xA77,0xA80), (0xA84,0xA84), (0xA8E,0xA8E),
  (0xA92,0xA92), (0xAA9,0xAA9), (0xAB1,0xAB1), (0xAB4,0xAB4), (0xABA,0xABB), (0xAC6,0xAC6),
  (0xACA,0xACA), (0xACE,0xACF), (0xAD1,0xADF), (0xAE4,0xAE5), (0xAF2,0xAF8), (0xB00,0xB00),
  (0xB04,0xB04), (0xB0D,0xB0E), (0xB11,0xB12), (0xB29,0xB29), (0xB31,0xB31), (0xB34,0xB34),
  (0xB3A,0xB3B), (0xB45,0xB46), (0xB49,0xB4A), (0xB4E,0xB54), (0xB58,0xB5B), (0xB5E,0xB5E),
  (0xB64,0xB65), (0xB78,0xB81), (0xB84,0xB84), (0xB8B,0xB8D), (0xB91,0xB91), (0xB96,0xB98),
  (0xB9B,0xB9B), (0xB9D,0xB9D), (0xBA0,0xBA2), (0xBA5,0xBA7), (0xBAB,0xBAD), (0xBBA,0xBBD),
  (0xBC3,0xBC5), (0xBC9,0xBC9), (0xBCE,0xBCF), (0xBD1,0xBD6), (0xBD8,0xBE5), (0xBFB,0xBFF),
  (0xC0D,0xC0D), (0xC11,0xC11), (0xC29,0xC29), (0xC3A,0xC3B), (0xC45,0xC45), (0xC49,0xC49),
  (0xC4E,0xC54), (0xC57,0xC57), (0xC5B,0xC5C), (0xC5E,0xC5F), (0xC64,0xC65), (0xC70,0xC76),
  (0xC8D,0xC8D), (0xC91,0xC91), (0xCA9,0xCA9), (0xCB4,0xCB4), (0xCBA,0xCBB), (0xCC5,0xCC5),
  (0xCC9,0xCC9), (0xCCE,0xCD4), (0xCD7,0xCDC), (0xCDF,0xCDF), (0xCE4,0xCE5), (0xCF0,0xCF0),
  (0xCF3,0xCFF), (0xD0D,0xD0D), (0xD11,0xD11), (0xD45,0xD45), (0xD49,0xD49), (0xD50,0xD53),
  (0xD64,0xD65), (0xD80,0xD80), (0xD84,0xD84), (0xD97,0xD99), (0xDB2,0xDB2), (0xDBC,0xDBC),
  (0xDBE,0xDBF), (0xDC7,0xDC9), (0xDCB,0xDCE), (0xDD5,0xDD5), (0xDD7,0xDD7), (0xDE0,0xDE5),
  (0xDF0,0xDF1), (0xDF5,0xE00), (0xE3B,0xE3E), (0xE5C,0xE80), (0xE83,0xE83), (0xE85,0xE85),
  (0xE8B,0xE8B), (0xEA4,0xEA4), (0xEA6,0xEA6), (0xEBE,0xEBF), (0xEC5,0xEC5), (0xEC7,0xEC7),
  (0xECE,0xECF), (0xEDA,0xEDB), (0xEE0,0xEFF), (0xF48,0xF48)]

private def unprintedRangesB : List (Nat × Nat) := [
  (0xF6D,0xF70), (0xF98,0xF98), (0xFBD,0xFBD), (0xFCD,0xFCD), (0xFDB,0xFFF), (0x10C6,0x10C6),
  (0x10C8,0x10CC), (0x10CE,0x10CF), (0x1249,0x1249), (0x124E,0x124F), (0x1257,0x1257),
  (0x1259,0x1259), (0x125E,0x125F), (0x1289,0x1289), (0x128E,0x128F), (0x12B1,0x12B1),
  (0x12B6,0x12B7), (0x12BF,0x12BF), (0x12C1,0x12C1), (0x12C6,0x12C7), (0x12D7,0x12D7),
  (0x1311,0x1311), (0x1316,0x1317), (0x135B,0x135C), (0x137D,0x137F), (0x139A,0x139F),
  (0x13F6,0x13F7), (0x13FE,0x13FF), (0x1680,0x1680), (0x169D,0x169F), (0x16F9,0x16FF),
  (0x1716,0x171E), (0x1737,0x173F), (0x1754,0x175F), (0x176D,0x176D), (0x1771,0x1771),
  (0x1774,0x177F), (0x17DE,0x17DF), (0x17EA,0x17EF), (0x17FA,0x17FF), (0x180E,0x180E),
  (0x181A,0x181F), (0x1879,0x187F), (0x18AB,0x18AF), (0x18F6,0x18FF), (0x191F,0x191F),
  (0x192C,0x192F), (0x193C,0x193F), (0x1941,0x1943), (0x196E,0x196F), (0x1975,0x197F),
  (0x19AC,0x19AF), (0x19CA,0x19CF), (0x19DB,0x19DD), (0x1A1C,0x1A1D), (0x1A5F,0x1A5F),
  (0x1A7D,0x1A7E), (0x1A8A,0x1A8F), (0x1A9A,0x1A9F), (0x1AAE,0x1AAF), (0x1ACF,0x1AFF),
  (0x1B4D,0x1B4F), (0x1B7F,0x1B7F), (0x1BF4,0x1BFB), (0x1C38,0x1C3A), (0x1C4A,0x1C4C),
  (0x1C89,0x1C8F), (0x1CBB,0x1CBC), (0x1CC8,0x1CCF), (0x1CFB,0x1CFF), (0x1F16,0x1F17),
  (0x1F1E,0x1F1F), (0x1F46,0x1F47), (0x1F4E,0x1F4F), (0x1F58,0x1F58), (0x1F5A,0x1F5A),
  (0x1F5C,0x1F5C), (0x1F5E,0x1F5E), (0x1F7E,0x1F7F), (0x1FB5,0x1FB5), (0x1FC5,0x1FC5),
  (0x1FD4,0x1FD5), (0x1FDC,0x1FDC), (0x1FF0,0x1FF1), (0x1FF5,0x1FF5), (0x1FFF,0x200F),
  (0x2028,0x202F), (0x205F,0x206F), (0x2072,0x2073), (0x208F,0x208F), (0x209D,0x209F),
  (0x20C1,0x20CF), (0x20F1,0x20FF), (0x218C,0x218F), (0x2427,0x243F), (0x244B,0x245F),
  (0x2B74,0x2B75), (0x2B96,0x2B96), (0x2CF4,0x2CF8), (0x2D26,0x2D26), (0x2D28,0x2D2C),
  (0x2D2E,0x2D2F), (0x2D68,0x2D6E), (0x2D71,0x2D7E), (0x2D97,0x2D9F), (0x2DA7,0x2DA7),
  (0x2DAF,0x2DAF), (0x2DB7,0x2DB7), (0x2DBF,0x2DBF), (0x2DC7,0x2DC7), (0x2DCF,0x2DCF),
  (0x2DD7,0x2DD7), (0x2DDF,0x2DDF), (0x2E5E,0x2E7F), (0x2E9A,0x2E9A), (0x2EF4,0x2EFF),
  (0x2FD6,0x2FEF), (0x2FFC,0x3000), (0x3040,0x3040), (0x3097,0x3098), (0x3100,0x3104),
  (0x3130,0x3130), (0x318F,0x318F), (0x31E4,0x31EF), (0x321F,0x321F), (0xA48D,0xA48F),
  (0xA4C7,0xA4CF), (0xA62C,0xA63F), (0xA6F8,0xA6FF), (0xA7CB,0xA7CF), (0xA7D2,0xA7D2),
  (0xA7D4,0xA7D4), (0xA7DA,0xA7F1), (0xA82D,0xA82F), (0xA83A,0xA83F), (0xA878,0xA87F),
  (0xA8C6,0xA8CD), (0xA8DA,0xA8DF), (0xA954,0xA95E), (0xA97D,0xA97F), (0xA9CE,0xA9CE),
  (0xA9DA,0xA9DD), (0xA9FF,0xA9FF), (0xAA37,0xAA3F), (0xAA4E,0xAA4F), (0xAA5A,0xAA5B),
  (0xAAC3,0xAADA), (0xAAF7,0xAB00), (0xAB07,0xAB08), (0xAB0F,0xAB10), (0xAB17,0xAB1F),
  (0xAB27,0xAB27), (0xAB2F,0xAB2F), (0xAB6C,0xAB6F), (0xABEE,0xABEF), (0xABFA,0xABFF),
  (0xD7A4,0xD7AF), (0xD7C7,0xD7CA), (0xD7FC,0xD7FF), (0xE000,0xF8FF)]

private def unprintedRangesC : List (Nat × Nat) := [
  (0xFA6E,0xFA6F), (0xFADA,0xFAFF), (0xFB07,0xFB12), (0xFB18,0xFB1C), (0xFB37,0xFB37),
  (0xFB3D,0xFB3D), (0xFB3F,0xFB3F), (0xFB42,0xFB42), (0xFB45,0xFB45), (0xFBC3,0xFBD2),
  (0xFD90,0xFD91), (0xFDC8,0xFDCE), (0xFDD0,0xFDEF), (0xFE1A,0xFE1F), (0xFE53,0xFE53),
  (0xFE67,0xFE67), (0xFE6C,0xFE6F), (0xFE75,0xFE75), (0xFEFD,0xFF00), (0xFFBF,0xFFC1),
  (0xFFC8,0xFFC9), (0xFFD0,0xFFD1), (0xFFD8,0xFFD9), (0xFFDD,0xFFDF), (0xFFE7,0xFFE7),
  (0xFFEF,0xFFFB), (0xFFFE,0xFFFF), (0x1000C,0x1000C), (0x10027,0x10027), (0x1003B,0x1003B),
  (0x1003E,0x1003E), (0x1004E,0x1004F), (0x1005E,0x1007F), (0x100FB,0x100FF), (0x10103,0x10106),
  (0x10134,0x10136), (0x1018F,0x1018F), (0x1019D,0x1019F), (0x101A1,0x101CF), (0x101FE,0x1027F),
  (0x1029D,0x1029F), (0x102D1,0x102DF), (0x102FC,0x102FF), (0x10324,0x1032C), (0x1034B,0x1034F),
  (0x1037B,0x1037F), (0x1039E,0x1039E), (0x103C4,0x103C7), (0x103D6,0x103FF), (0x1049E,0x1049F),
  (0x104AA,0x104AF), (0x104D4,0x104D7), (0x104FC,0x104FF), (0x10528,0x1052F), (0x10564,0x1056E),
  (0x1057B,0x1057B), (0x1058B,0x1058B), (0x10593,0x10593), (0x10596,0x10596), (0x105A2,0x105A2),
  (0x105B2,0x105B2), (0x105BA,0x105BA), (0x105BD,0x105FF), (0x10737,0x1073F), (0x10756,0x1075F),
  (0x10768,0x1077F), (0x10786,0x10786), (0x107B1,0x107B1), (0x107BB,0x107FF), (0x10806,0x10807),
  (0x10809,0x10809), (0x10836,0x10836), (0x10839,0x1083B), (0x1083D,0x1083E), (0x10856,0x10856),
  (0x1089F,0x108A6), (0x108B0,0x108DF), (0x108F3,0x108F3), (0x108F6,0x108FA), (0x1091C,0x1091E),
  (0x1093A,0x1093E), (0x10940,0x1097F), (0x109B8,0x109BB), (0x109D0,0x109D1), (0x10A04,0x10A04),
  (0x10A07,0x10A0B), (0x10A14,0x10A14), (0x10A18,0x10A18), (0x10A36,0x10A37), (0x10A3B,0x10A3E),
  (0x10A49,0x10A4F), (0x10A59,0x10A5F), (0x10AA0,0x10ABF), (0x10AE7,0x10AEA), (0x10AF7,0x10AFF),
  (0x10B36,0x10B38), (0x10B56,0x10B57), (0x10B73,0x10B77), (0x10B92,0x10B98), (0x10B9D,0x10BA8),
  (0x10BB0,0x10BFF), (0x10C49,0x10C7F), (0x10CB3,0x10CBF), (0x10CF3,0x10CF9), (0x10D28,0x10D2F),
  (0x10D3A,0x10E5F), (0x10E7F,0x10E7F), (0x10EAA,0x10EAA), (0x10EAE,0x10EAF), (0x10EB2,0x10EFF),
  (0x10F28,0x10F2F), (0x10F5A,0x10F6F), (0x10F8A,0x10FAF), (0x10FCC,0x10FDF), (0x10FF7,0x10FFF),
  (0x1104E,0x11051), (0x11076,0x1107E), (0x110BD,0x110BD), (0x110C3,0x110CF), (0x110E9,0x110EF),
  (0x110FA,0x110FF), (0x11135,0x11135), (0x11148,0x1114F), (0x11177,0x1117F), (0x111E0,0x111E0),
  (0x111F5,0x111FF), (0x11212,0x11212), (0x1123F,0x1127F), (0x11287,0x11287), (0x11289,0x11289),
  (0x1128E,0x1128E), (0x1129E,0x1129E), (0x112AA,0x112AF), (0x112EB,0x112EF), (0x112FA,0x112FF),
  (0x11304,0x11304), (0x1130D,0x1130E), (0x11311,0x11312), (0x11329,0x11329), (0x11331,0x11331),
  (0x11334,0x11334), (0x1133A,0x1133A), (0x11345,0x11346), (0x11349,0x1134A), (0x1134E,0x1134F),
  (0x11351,0x11356), (0x11358,0x1135C), (0x11364,0x11365), (0x1136D,0x1136F), (0x11375,0x113FF),
  (0x1145C,0x1145C), (0x11462,0x1147F), (0x114C8,0x114CF), (0x114DA,0x1157F), (0x115B6,0x115B7),
  (0x115DE,0x115FF), (0x11645,0x1164F), (0x1165A,0x1165F), (0x1166D,0x1167F), (0x116BA,0x116BF)]

private def unprintedRangesD : List (Nat × Nat) := [
  (0x116CA,0x116FF), (0x1171B,0x1171C), (0x1172C,0x1172F), (0x11747,0x117FF), (0x1183C,0x1189F),
  (0x118F3,0x118FE), (0x11907,0x11908), (0x1190A,0x1190B), (0x11914,0x11914), (0x11917,0x11917),
  (0x11936,0x11936), (0x11939,0x1193A), (0x11947,0x1194F), (0x1195A,0x1199F), (0x119A8,0x119A9),
  (0x119D8,0x119D9), (0x119E5,0x119FF), (0x11A48,0x11A4F), (0x11AA3,0x11AAF), (0x11AF9,0x11BFF),
  (0x11C09,0x11C09), (0x11C37,0x11C37), (0x11C46,0x11C4F), (0x11C6D,0x11C6F), (0x11C90,0x11C91),
  (0x11CA8,0x11CA8), (0x11CB7,0x11CFF), (0x11D07,0x11D07), (0x11D0A,0x11D0A), (0x11D37,0x11D39),
  (0x11D3B,0x11D3B), (0x11D3E,0x11D3E), (0x11D48,0x11D4F), (0x11D5A,0x11D5F), (0x11D66,0x11D66),
  (0x11D69,0x11D69), (0x11D8F,0x11D8F), (0x11D92,0x11D92), (0x11D99,0x11D9F), (0x11DAA,0x11EDF),
  (0x11EF9,0x11FAF), (0x11FB1,0x11FBF), (0x11FF2,0x11FFE), (0x1239A,0x123FF), (0x1246F,0x1246F),
  (0x12475,0x1247F), (0x12544,0x12F8F), (0x12FF3,0x12FFF), (0x1342F,0x143FF), (0x14647,0x167FF),
  (0x16A39,0x16A3F), (0x16A5F,0x16A5F), (0x16A6A,0x16A6D), (0x16ABF,0x16ABF), (0x16ACA,0x16ACF),
  (0x16AEE,0x16AEF), (0x16AF6,0x16AFF), (0x16B46,0x16B4F), (0x16B5A,0x16B5A), (0x16B62,0x16B62),
  (0x16B78,0x16B7C), (0x16B90,0x16E3F), (0x16E9B,0x16EFF), (0x16F4B,0x16F4E), (0x16F88,0x16F8E),
  (0x16FA0,0x16FDF), (0x16FE5,0x16FEF), (0x16FF2,0x16FFF), (0x187F8,0x187FF), (0x18CD6,0x18CFF),
  (0x18D09,0x1AFEF), (0x1AFF4,0x1AFF4), (0x1AFFC,0x1AFFC), (0x1AFFF,0x1AFFF), (0x1B123,0x1B14F),
  (0x1B153,0x1B163), (0x1B168,0x1B16F), (0x1B2FC,0x1BBFF), (0x1BC6B,0x1BC6F), (0x1BC7D,0x1BC7F),
  (0x1BC89,0x1BC8F), (0x1BC9A,0x1BC9B), (0x1BCA0,0x1CEFF), (0x1CF2E,0x1CF2F), (0x1CF47,0x1CF4F),
  (0x1CFC4,0x1CFFF), (0x1D0F6,0x1D0FF), (0x1D127,0x1D128), (0x1D173,0x1D17A), (0x1D1EB,0x1D1FF),
  (0x1D246,0x1D2DF), (0x1D2F4,0x1D2FF), (0x1D357,0x1D35F), (0x1D379,0x1D3FF), (0x1D455,0x1D455),
  (0x1D49D,0x1D49D), (0x1D4A0,0x1D4A1), (0x1D4A3,0x1D4A4), (0x1D4A7,0x1D4A8), (0x1D4AD,0x1D4AD),
  (0x1D4BA,0x1D4BA), (0x1D4BC,0x1D4BC), (0x1D4C4,0x1D4C4), (0x1D506,0x1D506), (0x1D50B,0x1D50C),
  (0x1D515,0x1D515), (0x1D51D,0x1D51D), (0x1D53A,0x1D53A), (0x1D53F,0x1D53F), (0x1D545,0x1D545),
  (0x1D547,0x1D549), (0x1D551,0x1D551), (0x1D6A6,0x1D6A7), (0x1D7CC,0x1D7CD), (0x1DA8C,0x1DA9A),
  (0x1DAA0,0x1DAA0), (0x1DAB0,0x1DEFF), (0x1DF1F,0x1DFFF), (0x1E007,0x1E007), (0x1E019,0x1E01A),
  (0x1E022,0x1E022), (0x1E025,0x1E025), (0x1E02B,0x1E0FF), (0x1E12D,0x1E12F), (0x1E13E,0x1E13F),
  (0x1E14A,0x1E14D), (0x1E150,0x1E28F), (0x1E2AF,0x1E2BF), (0x1E2FA,0x1E2FE), (0x1E300,0x1E7DF),
  (0x1E7E7,0x1E7E7), (0x1E7EC,0x1E7EC), (0x1E7EF,0x1E7EF), (0x1E7FF,0x1E7FF), (0x1E8C5,0x1E8C6),
  (0x1E8D7,0x1E8FF), (0x1E94C,0x1E94F), (0x1E95A,0x1E95D), (0x1E960,0x1EC70), (0x1ECB5,0x1ED00),
  (0x1ED3E,0x1EDFF), (0x1EE04,0x1EE04), (0x1EE20,0x1EE20), (0x1EE23,0x1EE23), (0x1EE25,0x1EE26),
  (0x1EE28,0x1EE28), (0x1EE33,0x1EE33), (0x1EE38,0x1EE38), (0x1EE3A,0x1EE3A), (0x1EE3C,0x1EE41),
  (0x1EE43,0x1EE46), (0x1EE48,0x1EE48), (0x1EE4A,0x1EE4A), (0x1EE4C,0x1EE4C), (0x1EE50,0x1EE50),
  (0x1EE53,0x1EE53), (0x1EE55,0x1EE56), (0x1EE58,0x1EE58), (0x1EE5A,0x1EE5A), (0x1EE5C,0x1EE5C)]

private def unprintedRangesE : List (Nat × Nat) := [
  (0x1EE5E,0x1EE5E), (0x1EE60,0x1EE60), (0x1EE63,0x1EE63), (0x1EE65,0x1EE66), (0x1EE6B,0x1EE6B),
  (0x1EE73,0x1EE73), (0x1EE78,0x1EE78), (0x1EE7D,0x1EE7D), (0x1EE7F,0x1EE7F), (0x1EE8A,0x1EE8A),
  (0x1EE9C,0x1EEA0), (0x1EEA4,0x1EEA4), (0x1EEAA,0x1EEAA), (0x1EEBC,0x1EEEF), (0x1EEF2,0x1EFFF),
  (0x1F02C,0x1F02F), (0x1F094,0x1F09F), (0x1F0AF,0x1F0B0), (0x1F0C0,0x1F0C0), (0x1F0D0,0x1F0D0),
  (0x1F0F6,0x1F0FF), (0x1F1AE,0x1F1E5), (0x1F203,0x1F20F), (0x1F23C,0x1F23F), (0x1F249,0x1F24F),
  (0x1F252,0x1F25F), (0x1F266,0x1F2FF), (0x1F6D8,0x1F6DC), (0x1F6ED,0x1F6EF), (0x1F6FD,0x1F6FF),
  (0x1F774,0x1F77F), (0x1F7D9,0x1F7DF), (0x1F7EC,0x1F7EF), (0x1F7F1,0x1F7FF), (0x1F80C,0x1F80F),
  (0x1F848,0x1F84F), (0x1F85A,0x1F85F), (0x1F888,0x1F88F), (0x1F8AE,0x1F8AF), (0x1F8B2,0x1F8FF),
  (0x1FA54,0x1FA5F), (0x1FA6E,0x1FA6F), (0x1FA75,0x1FA77), (0x1FA7D,0x1FA7F), (0x1FA87,0x1FA8F),
  (0x1FAAD,0x1FAAF), (0x1FABB,0x1FABF), (0x1FAC6,0x1FACF), (0x1FADA,0x1FADF), (0x1FAE8,0x1FAEF),
  (0x1FAF7,0x1FAFF), (0x1FB93,0x1FB93), (0x1FBCB,0x1FBEF), (0x1FBFA,0x1FFFF), (0x2A6E0,0x2A6FF),
  (0x2B739,0x2B73F), (0x2B81E,0x2B81F), (0x2CEA2,0x2CEAF), (0x2EBE1,0x2F7FF), (0x2FA1E,0x2FFFF),
  (0x3134B,0xE00FF), (0xE01F0,0x10FFFF)]

/-- Code points without a printed form: controls, unassigned and separators other than the space. -/
def unprintedRanges : List (Nat × Nat) :=
  unprintedRangesA ++ unprintedRangesB ++ unprintedRangesC ++ unprintedRangesD ++ unprintedRangesE

def upperRuns : List (Nat × Nat × Nat) := [
  (0x41,0x5A,1), (0xC0,0xD6,1), (0xD8,0xDE,1), (0x100,0x136,2), (0x139,0x147,2),
  (0x14A,0x178,2), (0x179,0x17D,2), (0x181,0x182,1), (0x184,0x186,2), (0x187,0x189,2),
  (0x18A,0x18B,1), (0x18E,0x191,1), (0x193,0x194,1), (0x196,0x198,1), (0x19C,0x19D,1),
  (0x19F,0x1A0,1), (0x1A2,0x1A6,2), (0x1A7,0x1A9,2), (0x1AC,0x1AE,2), (0x1AF,0x1B1,2),
  (0x1B2,0x1B3,1), (0x1B5,0x1B7,2), (0x1B8,0x1B8,1), (0x1BC,0x1BC,1), (0x1C4,0x1C4,1),
  (0x1C7,0x1C7,1), (0x1CA,0x1CA,1), (0x1CD,0x1DB,2), (0x1DE,0x1EE,2), (0x1F1,0x1F1,1),
  (0x1F4,0x1F6,2), (0x1F7,0x1F8,1), (0x1FA,0x232,2), (0x23A,0x23B,1), (0x23D,0x23E,1),
  (0x241,0x243,2), (0x244,0x246,1), (0x248,0x24E,2), (0x370,0x372,2), (0x376,0x376,1),
  (0x37F,0x37F,1), (0x386,0x388,2), (0x389,0x38A,1), (0x38C,0x38E,2), (0x38F,0x391,2),
  (0x392,0x3A1,1), (0x3A3,0x3AB,1), (0x3CF,0x3CF,1), (0x3D2,0x3D4,1), (0x3D8,0x3EE,2),
  (0x3F4,0x3F4,1), (0x3F7,0x3F9,2), (0x3FA,0x3FA,1), (0x3FD,0x42F,1), (0x460,0x480,2),
  (0x48A,0x4C0,2), (0x4C1,0x4CD,2), (0x4D0,0x52E,2), (0x531,0x556,1), (0x10A0,0x10C5,1),
  (0x10C7,0x10C7,1), (0x10CD,0x10CD,1), (0x13A0,0x13F5,1), (0x1C90,0x1CBA,1), (0x1CBD,0x1CBF,1),
  (0x1E00,0x1E94,2), (0x1E9E,0x1EFE,2), (0x1F08,0x1F0F,1), (0x1F18,0x1F1D,1), (0x1F28,0x1F2F,1),
  (0x1F38,0x1F3F,1), (0x1F48,0x1F4D,1), (0x1F59,0x1F5F,2), (0x1F68,0x1F6F,1), (0x1FB8,0x1FBB,1),
  (0x1FC8,0x1FCB,1), (0x1FD8,0x1FDB,1), (0x1FE8,0x1FEC,1), (0x1FF8,0x1FFB,1), (0x2102,0x2102,1),
  (0x2107,0x2107,1), (0x210B,0x210D,1), (0x2110,0x2112,1), (0x2115,0x2115,1), (0x2119,0x211D,1),
  (0x2124,0x212A,2), (0x212B,0x212D,1), (0x2130,0x2133,1), (0x213E,0x213F,1), (0x2145,0x2145,1),
  (0x2160,0x216F,1), (0x2183,0x2183,1), (0x24B6,0x24CF,1), (0x2C00,0x2C2F,1), (0x2C60,0x2C62,2),
  (0x2C63,0x2C64,1), (0x2C67,0x2C6D,2), (0x2C6E,0x2C70,1), (0x2C72,0x2C72,1), (0x2C75,0x2C75,1),
  (0x2C7E,0x2C80,1), (0x2C82,0x2CE2,2), (0x2CEB,0x2CED,2), (0x2CF2,0x2CF2,1), (0xA640,0xA66C,2),
  (0xA680,0xA69A,2), (0xA722,0xA72E,2), (0xA732,0xA76E,2), (0xA779,0xA77D,2), (0xA77E,0xA786,2),
  (0xA78B,0xA78D,2), (0xA790,0xA792,2), (0xA796,0xA7AA,2), (0xA7AB,0xA7AE,1), (0xA7B0,0xA7B4,1),
  (0xA7B6,0xA7C4,2), (0xA7C5,0xA7C7,1), (0xA7C9,0xA7C9,1), (0xA7D0,0xA7D0,1), (0xA7D6,0xA7D8,2),
  (0xA7F5,0xA7F5,1), (0xFF21,0xFF3A,1), (0x10400,0x10427,1), (0x104B0,0x104D3,1),
  (0x10570,0x1057A,1), (0x1057C,0x1058A,1), (0x1058C,0x10592,1), (0x10594,0x10595,1),
  (0x10C80,0x10CB2,1), (0x118A0,0x118BF,1), (0x16E40,0x16E5F,1), (0x1D400,0x1D419,1),
  (0x1D434,0x1D44D,1), (0x1D468,0x1D481,1), (0x1D49C,0x1D49E,2), (0x1D49F,0x1D49F,1),
  (0x1D4A2,0x1D4A2,1), (0x1D4A5,0x1D4A6,1), (0x1D4A9,0x1D4AC,1), (0x1D4AE,0x1D4B5,1),
  (0x1D4D0,0x1D4E9,1), (0x1D504,0x1D505,1), (0x1D507,0x1D50A,1), (0x1D50D,0x1D514,1),
  (0x1D516,0x1D51C,1), (0x1D538,0x1D539,1), (0x1D53B,0x1D53E,1), (0x1D540,0x1D544,1),
  (0x1D546,0x1D546,1), (0x1D54A,0x1D550,1), (0x1D56C,0x1D585,1), (0x1D5A0,0x1D5B9,1),
  (0x1D5D4,0x1D5ED,1), (0x1D608,0x1D621,1), (0x1D63C,0x1D655,1), (0x1D670,0x1D689,1),
  (0x1D6A8,0x1D6C0,1), (0x1D6E2,0x1D6FA,1), (0x1D71C,0x1D734,1), (0x1D756,0x1D76E,1),
  (0x1D790,0x1D7A8,1), (0x1D7CA,0x1D7CA,1), (0x1E900,0x1E921,1), (0x1F130,0x1F149,1),
  (0x1F150,0x1F169,1), (0x1F170,0x1F189,1)]

def lowerRuns : List (Nat × Nat × Nat) := [
  (0x61,0x7A,1), (0xAA,0xAA,1), (0xB5,0xB5,1), (0xBA,0xBA,1), (0xDF,0xF6,1), (0xF8,0xFF,1),
  (0x101,0x137,2), (0x138,0x148,2), (0x149,0x177,2), (0x17A,0x17E,2), (0x17F,0x180,1),
  (0x183,0x185,2), (0x188,0x188,1), (0x18C,0x18D,1), (0x192,0x192,1), (0x195,0x195,1),
  (0x199,0x19B,1), (0x19E,0x19E,1), (0x1A1,0x1A5,2), (0x1A8,0x1AA,2), (0x1AB,0x1AD,2),
  (0x1B0,0x1B0,1), (0x1B4,0x1B6,2), (0x1B9,0x1BA,1), (0x1BD,0x1BF,1), (0x1C6,0x1C6,1),
  (0x1C9,0x1C9,1), (0x1CC,0x1DC,2), (0x1DD,0x1EF,2), (0x1F0,0x1F0,1), (0x1F3,0x1F5,2),
  (0x1F9,0x233,2), (0x234,0x239,1), (0x23C,0x23C,1), (0x23F,0x240,1), (0x242,0x242,1),
  (0x247,0x24F,2), (0x250,0x293,1), (0x295,0x2B8,1), (0x2C0,0x2C1,1), (0x2E0,0x2E4,1),
  (0x345,0x345,1), (0x371,0x373,2), (0x377,0x377,1), (0x37A,0x37D,1), (0x390,0x390,1),
  (0x3AC,0x3CE,1), (0x3D0,0x3D1,1), (0x3D5,0x3D7,1), (0x3D9,0x3EF,2), (0x3F0,0x3F3,1),
  (0x3F5,0x3F5,1), (0x3F8,0x3F8,1), (0x3FB,0x3FC,1), (0x430,0x45F,1), (0x461,0x481,2),
  (0x48B,0x4BF,2), (0x4C2,0x4CE,2), (0x4CF,0x52F,2), (0x560,0x588,1), (0x10D0,0x10FA,1),
  (0x10FD,0x10FF,1), (0x13F8,0x13FD,1), (0x1C80,0x1C88,1), (0x1D00,0x1DBF,1), (0x1E01,0x1E95,2),
  (0x1E96,0x1E9D,1), (0x1E9F,0x1EFF,2), (0x1F00,0x1F07,1), (0x1F10,0x1F15,1), (0x1F20,0x1F27,1),
  (0x1F30,0x1F37,1), (0x1F40,0x1F45,1), (0x1F50,0x1F57,1), (0x1F60,0x1F67,1), (0x1F70,0x1F7D,1),
  (0x1F80,0x1F87,1), (0x1F90,0x1F97,1), (0x1FA0,0x1FA7,1), (0x1FB0,0x1FB4,1), (0x1FB6,0x1FB7,1),
  (0x1FBE,0x1FBE,1), (0x1FC2,0x1FC4,1), (0x1FC6,0x1FC7,1), (0x1FD0,0x1FD3,1), (0x1FD6,0x1FD7,1),
  (0x1FE0,0x1FE7,1), (0x1FF2,0x1FF4,1), (0x1FF6,0x1FF7,1), (0x2071,0x2071,1), (0x207F,0x207F,1),
  (0x2090,0x209C,1), (0x210A,0x210A,1), (0x210E,0x210F,1), (0x2113,0x2113,1), (0x212F,0x212F,1),
  (0x2134,0x2134,1), (0x2139,0x2139,1), (0x213C,0x213D,1), (0x2146,0x2149,1), (0x214E,0x214E,1),
  (0x2170,0x217F,1), (0x2184,0x2184,1), (0x24D0,0x24E9,1), (0x2C30,0x2C5F,1), (0x2C61,0x2C61,1),
  (0x2C65,0x2C66,1), (0x2C68,0x2C6C,2), (0x2C71,0x2C73,2), (0x2C74,0x2C76,2), (0x2C77,0x2C7D,1),
  (0x2C81,0x2CE3,2), (0x2CE4,0x2CE4,1), (0x2CEC,0x2CEE,2), (0x2CF3,0x2CF3,1), (0x2D00,0x2D25,1),
  (0x2D27,0x2D27,1), (0x2D2D,0x2D2D,1), (0xA641,0xA66D,2), (0xA681,0xA69B,2), (0xA69C,0xA69D,1),
  (0xA723,0xA72F,2), (0xA730,0xA731,1), (0xA733,0xA76F,2), (0xA770,0xA778,1), (0xA77A,0xA77C,2),
  (0xA77F,0xA787,2), (0xA78C,0xA78E,2), (0xA791,0xA793,2), (0xA794,0xA795,1), (0xA797,0xA7A9,2),
  (0xA7AF,0xA7AF,1), (0xA7B5,0xA7C3,2), (0xA7C8,0xA7CA,2), (0xA7D1,0xA7D9,2), (0xA7F6,0xA7F8,2),
  (0xA7F9,0xA7FA,1), (0xAB30,0xAB5A,1), (0xAB5C,0xAB68,1), (0xAB70,0xABBF,1), (0xFB00,0xFB06,1),
  (0xFB13,0xFB17,1), (0xFF41,0xFF5A,1), (0x10428,0x1044F,1), (0x104D8,0x104FB,1),
  (0x10597,0x105A1,1), (0x105A3,0x105B1,1), (0x105B3,0x105B9,1), (0x105BB,0x105BC,1),
  (0x10780,0x10780,1), (0x10783,0x10785,1), (0x10787,0x107B0,1), (0x107B2,0x107BA,1),
  (0x10CC0,0x10CF2,1), (0x118C0,0x118DF,1), (0x16E60,0x16E7F,1), (0x1D41A,0x1D433,1),
  (0x1D44E,0x1D454,1), (0x1D456,0x1D467,1), (0x1D482,0x1D49B,1), (0x1D4B6,0x1D4B9,1),
  (0x1D4BB,0x1D4BD,2), (0x1D4BE,0x1D4C3,1), (0x1D4C5,0x1D4CF,1), (0x1D4EA,0x1D503,1),
  (0x1D51E,0x1D537,1), (0x1D552,0x1D56B,1), (0x1D586,0x1D59F,1), (0x1D5BA,0x1D5D3,1),
  (0x1D5EE,0x1D607,1), (0x1D622,0x1D63B,1), (0x1D656,0x1D66F,1), (0x1D68A,0x1D6A5,1),
  (0x1D6C2,0x1D6DA,1), (0x1D6DC,0x1D6E1,1), (0x1D6FC,0x1D714,1), (0x1D716,0x1D71B,1),
  (0x1D736,0x1D74E,1), (0x1D750,0x1D755,1), (0x1D770,0x1D788,1), (0x1D78A,0x1D78F,1),
  (0x1D7AA,0x1D7C2,1), (0x1D7C4,0x1D7C9,1), (0x1D7CB,0x1D7CB,1), (0x1DF00,0x1DF09,1),
  (0x1DF0B,0x1DF1E,1), (0x1E922,0x1E943,1)]

def inRanges (table : List (Nat × Nat)) (n : Nat) : Bool :=
  table.any fun r => r.1 ≤ n && n ≤ r.2

def inRuns (table : List (Nat × Nat × Nat)) (n : Nat) : Bool :=
  table.any fun r => r.1 ≤ n && n ≤ r.2.1 && (n - r.1) % r.2.2 == 0

def isLetter (c : Char) : Bool :=
  if c.toNat < 128 then c.isAlpha else inRanges letterRanges c.toNat

def isDecimal (c : Char) : Bool :=
  if c.toNat < 128 then c.isDigit else inRanges decimalRanges c.toNat

/-- Decimal digits and the other digits: what a numeral of a token is made of. -/
def isDigit (c : Char) : Bool :=
  if c.toNat < 128 then c.isDigit else inRanges decimalRanges c.toNat || inRanges digitRanges c.toNat

def isAlphanumeric (c : Char) : Bool :=
  if c.toNat < 128 then c.isAlphanum
  else isLetter c || isDigit c || inRanges numericRanges c.toNat

def isWordChar (c : Char) : Bool := isAlphanumeric c || c == '_'

def isBlank (c : Char) : Bool :=
  if c.toNat < 128 then c.toNat == 32 || (9 ≤ c.toNat && c.toNat ≤ 13) || (28 ≤ c.toNat && c.toNat ≤ 31)
  else inRanges blankRanges c.toNat

def isPrinted (c : Char) : Bool :=
  if c.toNat < 128 then 32 ≤ c.toNat && c.toNat < 127 else !inRanges unprintedRanges c.toNat

def isUpper (c : Char) : Bool :=
  if c.toNat < 128 then c.isUpper else inRuns upperRuns c.toNat

def isLower (c : Char) : Bool :=
  if c.toNat < 128 then c.isLower else inRuns lowerRuns c.toNat

def decimalValue? (c : Char) : Option Nat :=
  if c.toNat < 128 then (if c.isDigit then some (c.toNat - 48) else none)
  else (decimalRanges.find? fun r => r.1 ≤ c.toNat && c.toNat ≤ r.2).map fun r => (c.toNat - r.1) % 10

end Conductor.Text
